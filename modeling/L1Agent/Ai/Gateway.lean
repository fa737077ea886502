import L1Agent.Ai.Schema
import L1Agent.Library.Program

/-! # The model gateway (`ai/gateway.py`, `ai/policy.py`)

One request to a provider, as a program over the transactions and the call that it consists of:
the policy and the budgets are read, the provider is asked, and a row of `model_calls` is written.
`ask` ends in the validated answer or in nothing.

What is left open (`Tools`) is the arithmetic of floats, the digest, the matching of a pattern and
the lower case of a text.  The message that is sent is what `compose` makes of a request.

An operation is a transaction or the call of the provider; each may raise, and `ask` catches all of
it.  When a request that was sent is charged is the subject of `Ai/Accounted.lean`.
-/
namespace L1Agent
open Decoded Interleaving
namespace Gateway

/-- What the libraries compute. -/
structure Tools where
  /-- `hashlib.sha256(text.encode("utf-8")).hexdigest()`, for a text that can be encoded. -/
  sha256 : Text → String
  /-- `float.__repr__` -/
  repr : Rat → List Char
  /-- The float nearest to a rational. -/
  nearest : Rat → Double
  /-- `re.fullmatch` -/
  fullmatch : Text → Text → Bool
  /-- `str.lower` -/
  lower : String → String
  /-- How deeply nested a value the encoder of JSON can still write. -/
  room : Nat

/-- `Prompt` -/
structure Prompt where
  task : String
  version : String
  tool : String
  toolDescription : String
  system : Text

/-- `ToolSpec` -/
structure ToolSpec where
  name : String
  description : String
  parameters : Schema

/-- A provider as the operator declares it. -/
structure Provider where
  id : String
  model : String
  region : String := ""
  retentionDays : Option Nat := none
  inputPricePerMtok : Double := .finite 0
  outputPricePerMtok : Double := .finite 0

/-- `Completion` -/
structure Completion where
  arguments : Option Value
  inputTokens : Option Nat := none
  outputTokens : Option Nat := none

/-- `Scope`, within a tenant. -/
structure Scope where
  runId : Option Nat := none
  subject : Text := []
  deriving DecidableEq

/-- What `ask` is given. -/
structure Request where
  scope : Scope
  prompt : Prompt
  /-- What `compose` makes of our own text and the sections. -/
  user : Except Raised Text
  parameters : Schema
  maxOutputTokens : Nat

/-! ## The policy -/

/-- `ModelPolicy` -/
structure ModelPolicy where
  enabled : Bool := false
  providers : List String := []
  tasks : List String := []
  regions : List String := []
  maxRetentionDays : Option Nat := none
  incidentTokens : Nat := 20000
  dailyTokens : Nat := 1000000
  incidentCostMicros : Option Int := none
  dailyCostMicros : Option Int := none

/-- Why a request is not sent. -/
inductive Reason where
  | modelOff
  | taskNotEnabled
  | providerNotAllowed
  | regionNotAllowed
  | retentionNotAllowed
  | budgetAlreadyExceeded
  | overBudget
  deriving DecidableEq, Repr

/-- Why this tenant may not use this provider for this task. -/
def permits (tools : Tools) (policy : ModelPolicy) (provider : Provider) (task : String) :
    Option Reason :=
  if !policy.enabled then some .modelOff
  else if !policy.tasks.contains task then some .taskNotEnabled
  else if !policy.providers.contains provider.id then some .providerNotAllowed
  else if !policy.regions.isEmpty && !policy.regions.contains (tools.lower provider.region) then
    some .regionNotAllowed
  else if policy.maxRetentionDays.any fun most => !provider.retentionDays.any (· ≤ most) then
    some .retentionNotAllowed
  else none

/-! ## The record of calls -/

/-- `MODEL_CALL_OUTCOMES` -/
inductive Outcome where
  | ok
  | invalid
  | error
  | overBudget
  deriving DecidableEq, Repr

/-- A row of `model_calls`. -/
structure ModelCall where
  runId : Option Nat
  subject : Text
  task : String
  provider : String
  model : String
  promptVersion : String
  inputDigest : String
  outputDigest : String
  inputTokens : Nat
  outputTokens : Nat
  costMicros : Int
  outcome : Outcome
  detail : String
  createdAt : Nat := 0
  deriving DecidableEq

/-- What a row counts for a budget. -/
def ModelCall.tokens (row : ModelCall) : Nat := row.inputTokens + row.outputTokens

/-- A text that the database takes: it has a UTF-8 form, without a zero byte. -/
def TakesText (t : Text) : Prop := ∀ c ∈ t, c.surrogate = false ∧ c.val ≠ 0

instance (t : Text) : Decidable (TakesText t) := List.decidableBAll _ _

/-- The columns take the row: the counts are of 32 bits, the cost is of 64 bits and not negative,
and the subject is a text of the database. -/
def ModelCall.Storable (row : ModelCall) : Prop :=
  row.inputTokens < 2 ^ 31 ∧ row.outputTokens < 2 ^ 31 ∧ 0 ≤ row.costMicros ∧
    row.costMicros < 2 ^ 63 ∧ TakesText row.subject

instance (row : ModelCall) : Decidable row.Storable := by
  unfold ModelCall.Storable
  infer_instance

/-- `Spent` -/
structure Spent where
  tokens : Nat := 0
  costMicros : Int := 0
  calls : Nat := 0

/-- A day, in microseconds. -/
def day : Nat := 86400000000

/-- Midnight UTC. -/
def startOfDay (now : Nat) : Nat := now - now % day

/-- Tokens and cost recorded for a run, or for the tenant since a moment. -/
def spent (calls : List ModelCall) (runId : Option Nat := none) (since : Option Nat := none) :
    Spent :=
  let rows := calls.filter fun row =>
    (runId.isNone || row.runId == runId) && since.all fun moment => moment ≤ row.createdAt
  { tokens := (rows.map ModelCall.tokens).sum
    costMicros := (rows.map ModelCall.costMicros).sum
    calls := rows.length }

/-- Whether a budget has ended the advisor's part in this run. -/
def stopped (calls : List ModelCall) (runId : Nat) : Bool :=
  calls.any fun row => row.runId == some runId && row.outcome == .overBudget

/-- What the tenant's tables hold, and the clock. -/
structure Store where
  policy : ModelPolicy
  calls : List ModelCall := []
  now : Nat := 0

/-! ## The operations -/

inductive Op where
  /-- The transaction of `_refusal`. -/
  | refusal (provider : Provider) (scope : Scope) (task : String) (neededTokens : Nat)
      (neededCost : Int)
  /-- `provider.complete`, with the time limit. -/
  | complete (system user : Text) (tool : ToolSpec) (maxOutputTokens : Nat)
  /-- The transaction of `_record`; the clock is read in it. -/
  | record (row : ModelCall)

/-- What an operation answers: `_refusal` says why not, and which budget. -/
abbrev Op.Ans : Op → Type
  | refusal .. => Except Raised (Option Reason × String)
  | complete .. => Except Raised Completion
  | record _ => Except Raised Unit

abbrev sig : Signature := ⟨Op, Op.Ans⟩

abbrev Prog := Program sig Raised

def record (row : ModelCall) : Prog Unit :=
  (Program.op (E := sig) (.record row)).bind fun answer : Except Raised Unit => .ofExcept answer

section
variable (tools : Tools)

/-- What `_refusal` finds in the tables. -/
def Store.refusal (s : Store) (provider : Provider) (scope : Scope) (task : String)
    (neededTokens : Nat) (neededCost : Int) : Option Reason × String :=
  match permits tools s.policy provider task with
  | some reason => (some reason, "")
  | none =>
    if scope.runId.any fun run => stopped s.calls run then (some .budgetAlreadyExceeded, "")
    else
      let run := if scope.runId.isSome then spent s.calls scope.runId else {}
      let day := spent s.calls none (some (startOfDay s.now))
      let exceeded :=
        if s.policy.incidentTokens < run.tokens + neededTokens then "incident_tokens"
        else if s.policy.dailyTokens < day.tokens + neededTokens then "daily_tokens"
        else if s.policy.incidentCostMicros.any fun most => most < run.costMicros + neededCost then
          "incident_cost"
        else if s.policy.dailyCostMicros.any fun most => most < day.costMicros + neededCost then
          "daily_cost"
        else ""
      (if exceeded ≠ "" then some .overBudget else none, exceeded)

/-! ## One request -/

/-- `CHARS_PER_TOKEN` -/
def charsPerToken : Nat := 3

/-- `estimate_tokens`, of a text of this length. -/
def estimateTokens (length : Nat) : Nat := length / charsPerToken + 1

/-- `_sha256` -/
def sha256 (t : Text) : Except Raised String :=
  if Encodes t then .ok (tools.sha256 t) else .error unicodeEncodeError

/-- `audit.canonical` -/
def canonical (v : Value) : Except Raised Text :=
  (v.dumps tools.repr { sortKeys := true, itemSeparator := ",", keySeparator := ":" } tools.room).map
    ofChars

/-- `json.dumps(answer, default=str)` -/
def dumps (v : Value) : Except Raised (List Char) := v.dumps tools.repr {} tools.room

/-- `_cost` -/
def cost (provider : Provider) (inputTokens outputTokens : Nat) : Except Raised Int := do
  let input ← toFloat tools.nearest inputTokens
  let output ← toFloat tools.nearest outputTokens
  ((input.mul tools.nearest provider.inputPricePerMtok).add tools.nearest
    (output.mul tools.nearest provider.outputPricePerMtok)).round

mutual

/-- An accepted schema as the dictionary that it is read from. -/
def schemaValue : Schema → Value
  | .object properties required _ _ => .obj [
      (text "type", .str (text "object")),
      (text "additionalProperties", .bool false),
      (text "properties", .obj (propertyValues properties)),
      (text "required", .arr (required.map .str))]
  | .string maxLength enum pattern _ => .obj (
      [(text "type", .str (text "string"))] ++
      (maxLength.map fun n => (text "maxLength", .num n)).toList ++
      (enum.map fun allowed => (text "enum", .arr allowed)).toList ++
      (pattern.map fun p => (text "pattern", .str p)).toList)
  | .number integer minimum maximum _ => .obj (
      [(text "type", .str (text (if integer then "integer" else "number")))] ++
      (minimum.map fun n => (text "minimum", .num n)).toList ++
      (maximum.map fun n => (text "maximum", .num n)).toList)
  | .boolean _ => .obj [(text "type", .str (text "boolean"))]
  | .array items maxItems _ => .obj (
      [(text "type", .str (text "array"))] ++
      (maxItems.map fun n => (text "maxItems", .num n)).toList ++
      (match items with
        | some child => [(text "items", schemaValue child)]
        | none => []))
  | .unsupported => .null

def propertyValues : List (Text × Schema) → List (Text × Value)
  | [] => []
  | (key, child) :: rest => (key, schemaValue child) :: propertyValues rest

end

/-- What is sent, as one text: the instructions, the message and the schema. -/
def outbound (request : Request) (user : Text) : Except Raised Text :=
  (canonical tools (schemaValue request.parameters)).map fun schema =>
    request.prompt.system ++ text "\n" ++ user ++ text "\n" ++ schema

/-- The digest of an answer that is used. -/
def answerDigest : Option Value → Except Raised String
  | none => .ok ""
  | some answer => do sha256 tools (← canonical tools answer)

/-- The row of a request, without its time. -/
def recordRow (provider : Provider) (request : Request) (outbound : Text) (answer : Option Value)
    (inputTokens outputTokens : Nat) (outcome : Outcome) (detail : String) :
    Except Raised ModelCall := do
  let inputDigest ← sha256 tools outbound
  let outputDigest ← answerDigest tools answer
  let costMicros ← cost tools provider inputTokens outputTokens
  return {
    runId := request.scope.runId
    subject := request.scope.subject.take 200
    task := request.prompt.task
    provider := provider.id
    model := String.ofList (provider.model.toList.take 200)
    promptVersion := request.prompt.version
    inputDigest
    outputDigest
    inputTokens
    outputTokens
    costMicros
    outcome
    detail := String.ofList (detail.toList.take 300) }

/-- `_record` -/
def recordCall (provider : Provider) (request : Request) (outbound : Text) (answer : Option Value)
    (inputTokens outputTokens : Nat) (outcome : Outcome) (detail : String := "") : Prog Unit :=
  (Program.ofExcept (recordRow tools provider request outbound answer inputTokens outputTokens
    outcome detail)).bind record

/-- What is wrong with an answer. -/
def answerProblems (request : Request) : Option Value → Except Raised (List Text)
  | none => .ok [text "no function call"]
  | some answer => problems tools.fullmatch request.parameters answer (text "\x24")

/-- The answer as a text. -/
def answered : Option Value → Except Raised (List Char)
  | none => .ok []
  | some answer => dumps tools answer

/-- What is read of a reply: the problems of its answer, and the answer as a text. -/
def readAnswer (request : Request) (completion : Completion) :
    Except Raised (List Text × List Char) := do
  let found ← answerProblems tools request completion.arguments
  let written ← answered tools completion.arguments
  return (found, written)

/-- After the reply: what it counts is recorded, and its answer is used if it fits. -/
def settle (provider : Provider) (request : Request) (outbound : Text) (completion : Completion) :
    Prog (Option Value) :=
  (Program.ofExcept (readAnswer tools request completion)).bind fun (found, written) =>
    (recordCall tools provider request outbound
      (if found.isEmpty then completion.arguments else none)
      (completion.inputTokens.getD (estimateTokens outbound.length))
      (completion.outputTokens.getD (estimateTokens written.length))
      (if found.isEmpty then .ok else .invalid)
      (if found.isEmpty then "" else s!"{found.length} schema problem(s)")).bind fun _ =>
    .ret (if found.isEmpty then completion.arguments else none)

/-- The request is sent. -/
def send (provider : Provider) (request : Request) (user outbound : Text) : Prog (Option Value) :=
  (Program.op (E := sig) (.complete request.prompt.system user
    ⟨request.prompt.tool, request.prompt.toolDescription, request.parameters⟩
    request.maxOutputTokens)).bind fun reply : Except Raised Completion =>
  match reply with
  -- The request may have been processed and billed: what was sent counts.
  | .error exn =>
    (recordCall tools provider request outbound none (estimateTokens outbound.length) 0 .error
      exn.typeName).bind fun _ => .ret none
  | .ok completion => settle tools provider request outbound completion

/-- After the check: a request over a budget is recorded, and a permitted one is sent. -/
def proceed (provider : Provider) (request : Request) (user outbound : Text) :
    Option Reason × String → Prog (Option Value)
  | (some .overBudget, budget) =>
    (recordCall tools provider request outbound none 0 0 .overBudget budget).bind fun _ => .ret none
  | (some _, _) => .ret none
  | (none, _) => send tools provider request user outbound

/-- `_ask` -/
def askProvider (provider : Provider) (request : Request) : Prog (Option Value) :=
  (Program.ofExcept (checkSchema request.parameters)).bind fun _ =>
  (Program.ofExcept request.user).bind fun user =>
  (Program.ofExcept (outbound tools request user)).bind fun outbound =>
  (Program.ofExcept (cost tools provider (estimateTokens outbound.length)
    request.maxOutputTokens)).bind fun neededCost =>
  (Program.op (E := sig) (.refusal provider request.scope request.prompt.task
    (estimateTokens outbound.length + request.maxOutputTokens) neededCost)).bind
      fun answer : Except Raised (Option Reason × String) =>
  (Program.ofExcept answer).bind (proceed tools provider request user outbound)

/-- `ModelGateway.ask`: the validated answer, or nothing. -/
def ask (provider : Option Provider) (request : Request) : Prog (Option Value) :=
  match provider with
  | none => .ret none
  | some provider => (askProvider tools provider request).tryCatch fun _ => .ret none

end

end Gateway
end L1Agent
