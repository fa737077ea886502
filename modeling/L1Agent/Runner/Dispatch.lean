import L1Agent.Audit.Log
import L1Agent.Library.Past
import L1Agent.Runner.Queue
import L1Agent.Runner.Agent

/-! # The control plane's side of the runners (`runner/dispatch.py`, `api/app.py`)

`call` puts a signed call in the queue and waits for its row to be done; `handOut` gives a runner
the calls that it may make.  Every database transaction may fail, before or after it has taken
effect, and a wait may end with the cancellation of its task.  The rounds of a waiting loop are
counted down from a number that the environment chooses: a run in which the loop goes on is one
with a larger number.

The parties are the callers and the two routes of a runner (`Serves`), and `plane` is the system of
all of them over one queue.  `Runner/Conduct.lean` tells what each does, and `Runner/Handed.lean`
what comes of it.
-/
namespace L1Agent
namespace Dispatch
open Interleaving
open Access (RunnerIdentity)

inductive Exn where
  /-- `asyncio.CancelledError` -/
  | cancelled
  /-- `RunnerUnavailable` -/
  | unavailable (message : String)
  | outcomeUnknown (message : String)
  | refused (message : String)
  | writeNotAuthorized (message : String)
  | lookup (message : String)
  | permission (message : String)
  /-- The loop has not ended within the rounds that were counted. -/
  | unfinished
  /-- Any other exception. -/
  | crash
  deriving DecidableEq, Repr

/-- How an operation fails. -/
inductive Fault where
  | cancelled
  | crash
  deriving DecidableEq, Repr

def Fault.exn : Fault → Exn
  | cancelled => .cancelled
  | crash => .crash

inductive Op where
  | uuid4
  | time
  | utcnow
  | monotonic
  | sleep (seconds : Rat)
  | isDisconnected
  | db (c : DbCall)
  /-- The response to a runner that asked for calls. -/
  | respond (runner : RunnerIdentity) (calls : List Claimed)
  /-- What the caller of `RemoteConnectorSet.invoke` is given. -/
  | ended (result : Except Exn Runner.Result)

abbrev Op.Ans : Op → Type
  | uuid4 => Nat
  | time | utcnow | monotonic => Rat
  | sleep _ => Except Fault Unit
  | isDisconnected => Except Fault Bool
  | db c => Except Fault c.Val
  | respond .. | ended _ => Unit

def Calls : Signature := ⟨Op, Op.Ans⟩

abbrev Prog (α : Type) := Program Calls Exn α

/-- An answer, or the failure that is raised. -/
def orRaise {α : Type} (answer : Except Fault α) : Prog α :=
  Program.ofExcept (answer.mapError Fault.exn)

def askDb (c : DbCall) : Prog c.Val := (Program.op (E := Calls) (.db c)).bind orRaise

def uuid4 : Prog Nat := Program.op (E := Calls) .uuid4
def time : Prog Rat := Program.op (E := Calls) .time
def utcnow : Prog Rat := Program.op (E := Calls) .utcnow
def monotonic : Prog Rat := Program.op (E := Calls) .monotonic

def sleep (seconds : Rat) : Prog Unit := (Program.op (E := Calls) (.sleep seconds)).bind orRaise

def isDisconnected : Prog Bool := (Program.op (E := Calls) .isDisconnected).bind orRaise

/-- `StepContext` -/
structure StepContext where
  tenantId : String
  runId : String
  stepId : String
  purpose : String

/-- What `call` is given. -/
structure Request where
  kind : String
  connector : Runner.Built
  capabilityId : String := ""
  parameters : Json := .obj []
  context : Option StepContext := none
  /-- The grant, as `to_dict` gives it. -/
  grant : Option Json := none
  isWrite : Bool := false
  timeoutSeconds : Rat

/-- The deployment: its settings, and what the libraries compute. -/
structure Site where
  tools : Audit.Tools
  /-- The signature of the dispatch key. -/
  sign : String → String
  uuidText : Nat → String
  marginSeconds : Rat := 20
  waitSeconds : Option Rat := none
  pollSeconds : Rat := 1 / 5
  claimPollSeconds : Rat := 1 / 4
  registry : List Manifest
  /-- `capability.timeout_seconds` -/
  timeoutSeconds : Capability → Rat
  /-- `Connector.refusals` -/
  refusals : Runner.Built → Capability → Json → List String

variable (site : Site)

/-! ## The dispatcher -/

/-- `envelope` -/
def envelope (callId : Nat) (tenantId : String) (r : Request) (issued expires : Rat) : String :=
  Audit.canonical site.tools (.obj
    [("v", .int 1), ("call_id", .str (site.uuidText callId)), ("tenant_id", .str tenantId),
      ("kind", .str r.kind), ("connector_id", .str r.connector.connectorId),
      ("capability_id", .str r.capabilityId), ("parameters", r.parameters),
      ("context", .obj [("run_id", .str (r.context.elim "" (·.runId))),
        ("step_id", .str (r.context.elim "" (·.stepId))),
        ("purpose", .str (r.context.elim "test_connection" (·.purpose)))]),
      ("connection", .obj [("config", r.connector.config),
        ("secret_refs", .obj (r.connector.secretRefs.map fun p => (p.1, .str p.2)))]),
      ("grant", r.grant.getD .null), ("issued_at", .float issued), ("expires_at", .float expires)])

/-- The rounds of the loop of `call`: the answer, or none when the time is up. -/
def watch (tenantId : String) (callId : Nat) (ends : Rat) : Nat → Prog (Option Answer)
  | 0 => throw .unfinished
  | rounds + 1 => do
    let row : Option Answer ← askDb (.answer tenantId callId)
    match row with
    | some answer => do
      askDb (.remove tenantId callId)
      pure (some answer)
    | none => do
      let now ← monotonic
      if ends ≤ now then pure none
      else do
        sleep site.pollSeconds
        watch tenantId callId ends rounds

/-- `except asyncio.CancelledError`: a call that nobody has taken is not to be made any more. -/
def withdrawing (tenantId : String) (callId : Nat) (p : Prog (Option Answer)) :
    Prog (Option Answer) :=
  p.tryCatch fun
    | .cancelled => do
      let _ : Bool ← askDb (.cancel tenantId callId)
      throw .cancelled
    | e => throw e

def withdrawn : Exn :=
  .unavailable "No runner took the call in time; it was withdrawn and was not made"

/-- What `call` does when its time is up. -/
def settle (tenantId : String) (callId : Nat) (isWrite : Bool) : Prog Answer := do
  let cancelled : Bool ← askDb (.cancel tenantId callId)
  if cancelled then do
    askDb (.remove tenantId callId)
    throw withdrawn
  else do
    let row : Option Answer ← askDb (.answer tenantId callId)
    match row with
    | some answer => do
      askDb (.remove tenantId callId)
      pure answer
    | none =>
      if isWrite then
        throw (.outcomeUnknown ("A runner took the write and returned no result in time; " ++
          "whether it was made is not known"))
      else throw (.unavailable "A runner took the call and did not answer in time")

/-- `RunnerDispatcher.call` -/
def call (tenantId : String) (r : Request) (rounds : Nat) : Prog Answer := do
  let callId ← uuid4
  let wait := site.waitSeconds.getD (r.timeoutSeconds + site.marginSeconds)
  let issued ← time
  let text := envelope site callId tenantId r issued (issued + wait)
  let deadline ← utcnow
  let now ← utcnow
  askDb (.enqueue now
    { id := callId, tenantId, kind := r.kind, connectorId := r.connector.connectorId,
      capabilityId := r.capabilityId, isWrite := r.isWrite, envelope := text,
      signature := site.sign text, deadline := deadline + wait })
  let started ← monotonic
  let found ← withdrawing tenantId callId (watch site tenantId callId (started + wait) rounds)
  match found with
  | some answer => pure answer
  | none => settle tenantId callId r.isWrite

/-! ## The connectors of a tenant -/

/-- `RemoteConnectorSet`, with its `ConnectorSet`. -/
structure RemoteConnectorSet where
  tenantId : String
  connectors : List (String × Runner.Built)

/-- `Registry.owner` -/
def owner (capabilityId : String) : Option Manifest :=
  site.registry.find? fun m => (m.capability capabilityId).isSome

/-- `str(result.get("error") or "")` -/
def errorOf (result : Json) : String :=
  match result.getD "error" .null with
  | .str s => s
  | e => if e.truthy then site.tools.builtins.str e else ""

/-- `text or default` -/
def orText (text default : String) : String := if text = "" then default else text

/-- `_raise_for` -/
def raiseFor (outcome error : String) : Except Exn Unit :=
  if outcome = "refused" then .error (.refused (orText error "the runner refused the call"))
  else if outcome = "not_authorized" then
    .error (.writeNotAuthorized (orText error "the runner did not accept the grant"))
  else if outcome = "unknown" then
    .error (.lookup (orText error "the runner does not have this capability"))
  else .ok ()

/-- `str(data.get(key) or "")[:limit]` -/
def wireText (data : Json) (key : String) (limit : Nat) : String :=
  let value := data.getD key .null
  let text := match value with
    | .str s => s
    | _ => if value.truthy then site.tools.builtins.str value else ""
  String.ofList (text.toList.take limit)

/-- `result_from_wire` -/
def resultFromWire (data : Json) : Runner.Result :=
  match data.get? "success" with
  | some (.bool success) =>
    { success
      data := if (data.getD "data" .null).isObj then data.getD "data" .null else .obj []
      rawOutput := wireText site data "raw_output" (64 * 1024)
      error := wireText site data "error" 2000
      evidenceSnippet := wireText site data "evidence_snippet" (16 * 1024) }
  | _ => { success := false, error := "the runner returned no usable result" }

/-- What `invoke` makes of the row of its call. -/
def resultOf (answer : Answer) : Except Exn Runner.Result :=
  (raiseFor answer.outcome (errorOf site answer.result)).bind fun _ =>
    if answer.outcome = "ok" then .ok (resultFromWire site answer.result)
    else .ok
      { success := false
        error := orText (errorOf site answer.result) "the runner could not make the call" }

/-- The checks that `invoke` makes before it asks the dispatcher. -/
def admission (set : RemoteConnectorSet) (capabilityId : String) (parameters : Json)
    (context : Option StepContext) (grant : Option Json) (dryRun : Bool) :
    Except Exn (StepContext × Request) :=
  match (owner site capabilityId).bind fun m => (m.capability capabilityId).map fun c => (m, c) with
  | none => .error (.lookup ("Unknown capability '" ++ capabilityId ++ "'"))
  | some (manifest, capability) =>
    match set.connectors.lookup manifest.id with
    | none => .error (.lookup ("Connector '" ++ manifest.id ++ "' is not configured"))
    | some connector =>
      match context with
      | none => .error (.permission "A capability can only be called with a step context")
      | some context =>
        let isWrite := capability.kind = .write
        if context.tenantId ≠ set.tenantId then
          .error (.permission "The step belongs to another tenant")
        else if isWrite ∧ !dryRun ∧ grant = none then
          .error (.writeNotAuthorized ("'" ++ capabilityId ++
            "' is a write and needs a grant from the policy engine"))
        else if !(site.refusals connector capability parameters).isEmpty then
          .error (.refused ("; ".intercalate (site.refusals connector capability parameters)))
        else .ok (context,
          { kind := if dryRun then "dry_run" else "invoke"
            connector, capabilityId, parameters
            context := some context
            grant := if isWrite ∧ !dryRun then grant else none
            isWrite := isWrite ∧ !dryRun
            timeoutSeconds := site.timeoutSeconds capability })

/-- `RemoteConnectorSet.invoke` -/
def invoke (set : RemoteConnectorSet) (capabilityId : String) (parameters : Json)
    (context : Option StepContext) (grant : Option Json) (dryRun : Bool) (rounds : Nat) :
    Prog Runner.Result := do
  let admitted ← Program.ofExcept (admission site set capabilityId parameters context grant dryRun)
  let answer ← call site set.tenantId admitted.2 rounds
  Program.ofExcept (resultOf site answer)

/-- `CheckResult` -/
structure CheckResult where
  name : String
  ok : Bool
  detail : String

/-- What `test` makes of the row of its call. -/
def checksOf (answer : Answer) : List CheckResult :=
  if answer.outcome ≠ "ok" then
    [⟨"runner", false, orText (errorOf site answer.result) answer.outcome⟩]
  else match answer.result.get? "checks" with
    | some (.arr (check :: checks)) => (check :: checks).filterMap fun c =>
      if c.isObj then
        some ⟨site.tools.builtins.str (c.getD "name" (.str "")), c.get? "ok" = some (.bool true),
          site.tools.builtins.str (c.getD "detail" (.str ""))⟩
      else none
    | _ => [⟨"runner", false, "the runner returned no checks"⟩]

/-- `RemoteConnectorSet.test` -/
def test (set : RemoteConnectorSet) (connectorId : String) (rounds : Nat) :
    Prog (List CheckResult) :=
  match set.connectors.lookup connectorId with
  | none => pure [⟨"connection", false, "not configured"⟩]
  | some connector =>
    ((call site set.tenantId { kind := "test", connector, timeoutSeconds := 30 } rounds).bind
      fun answer => Program.ret (checksOf site answer)).tryCatch fun
        | .unavailable message => pure [⟨"reach the runner", false, message⟩]
        | e => throw e

/-! ## The routes of the runners -/

/-- The event of `_record_hand_over`; `none` where the envelope is not read as a call. -/
def handOver (runner : RunnerIdentity) (c : Claimed) : Option HandOver :=
  match Json.loads site.tools.numbers c.envelope with
  | some (.obj fields) =>
    let body := Json.obj fields
    let context := (body.getD "context" .null).orElse (.obj [])
    if !context.isObj then none
    else some
      { tenantId := runner.tenantId
        actorId := runner.name ++ "|" ++ runner.id
        payload := .obj [("call_id", .str (site.uuidText c.id)), ("runner_id", .str runner.id),
          ("capability", body.getD "capability_id" (.str "")),
          ("step_id", context.getD "step_id" (.str "")),
          ("envelope_sha256", .str (Audit.digest site.tools (.str c.envelope)))]
        correlationId := site.tools.builtins.str (context.getD "run_id" (.str "")) }
  | _ => none

/-- One call of those that `hand_out` has claimed: whether it is handed out. -/
def handOutOne (runner : RunnerIdentity) (stopped : List String) (c : Claimed) : Prog Bool :=
  if c.isWrite ∧ !stopped.isEmpty then do
    let _ : Bool ← askDb (.recordResult runner.tenantId c.id
      ⟨"not_authorized", .obj [("error", .str ("kill switch is on: " ++
        ", ".intercalate stopped))]⟩ none)
    pure false
  else if c.isWrite then
    match handOver site runner c with
    | none => throw .crash
    | some event => do
      askDb (.handOver event)
      pure true
  else pure true

/-- The loop of `hand_out`. -/
def handOutEach (runner : RunnerIdentity) (stopped : List String) :
    List Claimed → Prog (List Claimed)
  | [] => pure []
  | c :: rest => do
    let handed ← handOutOne site runner stopped c
    let out ← handOutEach runner stopped rest
    pure (if handed then c :: out else out)

/-- `hand_out` -/
def handOut (runner : RunnerIdentity) (limit : Int) : Prog (List Claimed) := do
  let now ← utcnow
  let claimed : List Claimed ← askDb (.claim now runner limit)
  if claimed.isEmpty then pure []
  else do
    let stopped : List String ←
      if claimed.any (·.isWrite) then askDb (.switchesOn runner.tenantId) else pure []
    handOutEach site runner stopped claimed

/-- The rounds of `runner_claim`. -/
def offer (runner : RunnerIdentity) (limit : Int) (ends : Rat) : Nat → Prog Unit
  | 0 => throw .unfinished
  | rounds + 1 => do
    let calls ← handOut site runner limit
    let answer := Program.op (E := Calls) (.respond runner calls)
    if !calls.isEmpty then answer
    else do
      let now ← monotonic
      if ends ≤ now then answer
      else do
        let gone ← isDisconnected
        if gone then answer
        else do
          sleep site.claimPollSeconds
          offer runner limit ends rounds

/-- `runner_claim`, once the body has been read. -/
def runnerClaim (runner : RunnerIdentity) (most : Int) (wait : Rat) (reported : Json)
    (rounds : Nat) : Prog Unit := do
  askDb (.seen runner reported)
  let now ← monotonic
  offer site runner (min 10 (max 1 most)) (now + min 20 (max 0 wait)) rounds

/-- `runner_result`, once the body has been read: whether the result is accepted. -/
def runnerResult (runner : RunnerIdentity) (callId : Nat) (outcome : String) (result : Json) :
    Prog Bool :=
  askDb (.recordResult runner.tenantId callId ⟨outcome, result⟩ (some runner.id))

/-! ## The system -/

structure State where
  queue : Queue := {}
  /-- The ids that have been given. -/
  issued : List Nat := []

/-- What the environment settles. -/
structure Choice where
  /-- The id that `uuid4` gives, which is not one that it has given. -/
  uuid : Nat := 0
  reading : Rat := 0
  flag : Bool := false
  /-- The operation fails, although a transaction may have taken effect. -/
  fault : Option Fault := none
  landed : Bool := false
  /-- The rows that other transactions hold. -/
  locked : List Nat := []
  deriving DecidableEq

/-- What a transaction answers and leaves. -/
def transact (c : DbCall) (ch : Choice) (s : State) : Except Fault c.Val × State :=
  match c.run ch.locked s.queue with
  | none => (.error (ch.fault.getD .crash), s)
  | some (v, queue) => match ch.fault with
    | none => (.ok v, { s with queue })
    | some e => (.error e, if ch.landed then { s with queue } else s)

/-- What an operation answers and leaves. -/
def step (o : Op) (ch : Choice) (s : State) : Option (o.Ans × State) :=
  match o with
  | .uuid4 =>
    if ch.uuid ∈ s.issued then none
    else some (ch.uuid, { s with issued := ch.uuid :: s.issued })
  | .time | .utcnow | .monotonic => some (ch.reading, s)
  | .sleep _ => some (ch.fault.elim (.ok ()) .error, s)
  | .isDisconnected => some (ch.fault.elim (.ok ch.flag) .error, s)
  | .db c => some (transact c ch s)
  | .respond .. | .ended _ => some ((), s)

/-- What runs in the control plane. -/
inductive Serves : Prog Unit → Prop where
  | invoke (set : RemoteConnectorSet) (capabilityId : String) (parameters : Json)
      (context : Option StepContext) (grant : Option Json) (dryRun : Bool) (rounds : Nat) :
      Serves ((invoke site set capabilityId parameters context grant dryRun rounds).attempt.bind
        fun r => Program.op (E := Calls) (.ended r))
  | test (set : RemoteConnectorSet) (connectorId : String) (rounds : Nat) :
      Serves ((test site set connectorId rounds).bind fun _ => .ret ())
  | claim (runner : RunnerIdentity) (most : Int) (wait : Rat) (reported : Json) (rounds : Nat) :
      Serves (runnerClaim site runner most wait reported rounds)
  | result (runner : RunnerIdentity) (callId : Nat) (outcome : String) (result : Json) :
      Serves ((runnerResult runner callId outcome result).bind fun _ => .ret ())
  | switch (tenantId : Option String) (on : Bool) : Serves (askDb (.setSwitch tenantId on))

/-- The control plane, with any number of callers and runners. -/
def plane : System Calls Exn State where
  Choice := Choice
  run _ o ch s := step o ch s
  Entry := Serves site

end Dispatch
end L1Agent
