import L1Agent.Library.Literals
import L1Agent.Library.Past
import L1Agent.Runner.Ceiling

/-! # The runner (`runner/agent.py`)

A runner is handed calls and carries them out with its own connectors.  `make` is what it does
with one of them: it checks the control plane's signature, then whether the call is one to make
(`envelopeProblem`, which remembers the calls that were), then its ceiling, and only then has a
connector make it, which checks the parameters and, for a write, the grant.

The calls that come in are whatever the network brings; several are made at a time.  A connector
is the program that its class holds, over the two things it can do: ask for one of its
credentials, and send something to its target.  What it remembers of its credentials, and what
the check of a grant says, is left open.

The operations of a thread are `Call`, and `process` is the system of all of them.  What a thread
calls, and after what, is the subject of `Runner/Calls.lean`; how often an item is carried out, that
of `Runner/Once.lean`.
-/
namespace L1Agent
namespace Runner
open Interleaving Literals

def callDomain := "l1-runner-call-v1"
def seenLimit : Nat := 10000

inductive Exn where
  | writeNotAuthorized (message : String)
  | refused (message : String)
  | lookup (message : String)
  | secret (message : String)
  /-- Any other exception. -/
  | other (name : String)
  deriving DecidableEq, Repr

/-- `AdapterResult` -/
structure Result where
  success : Bool
  data : Json := .null
  rawOutput : String := ""
  error : String := ""
  evidenceSnippet : String := ""
  deriving DecidableEq

/-- A connector with its settings and the references to its credentials. -/
structure Built where
  connectorId : String
  config : Json
  secretRefs : List (String × String)
  deriving DecidableEq

/-- `_Held` -/
structure Held where
  digest : String
  connector : Built
  deriving DecidableEq

/-- What a connector's class implements. -/
inductive Task where
  | execute (capability : Capability) (parameters : Json)
  | executeWrite (capability : Capability) (parameters : Json)
  | dryRun (capability : Capability) (parameters : Json)
  | testConnection

/-- What the code of a connector can do. -/
inductive CodeOp where
  | secret (slot : String) (fresh : Bool)
  | send (message : Json)

def Code : Signature where
  Op := CodeOp
  Ans
    | .secret .. => String
    | .send _ => Except Exn Json

/-- The runner's settings, its connectors, and what the libraries compute. -/
structure Site where
  /-- The tenant that the runner's identity names, if it was given one. -/
  tenantId : Option String
  dispatchKey : Bytes
  ceiling : Ceiling
  /-- Whether it has the key that grants are checked with. -/
  writes : Bool
  registry : String → Option Manifest
  code : Built → Task → Program Code Exn Result
  /-- The connectors that are mocks, which need no credentials. -/
  mocks : List String
  texts : Texts
  /-- Whether a signature is the key's signature of the text. -/
  accepts : Bytes → String → Bytes → Bool
  /-- `json.loads` -/
  loads : String → Option Json
  /-- `float(n)`; `none` where it raises. -/
  floatOf : Int → Option Rat
  /-- `uuid.UUID(text)` -/
  parseUuid : String → Option String
  /-- `digest`, of a value's canonical form. -/
  digest : Json → String
  /-- The length of a value's canonical form. -/
  canonicalLength : Json → Nat
  /-- `validate_parameters`, against the schema of a capability. -/
  schemaProblems : Capability → Json → List String

/-- How a call is carried out, once it is to be. -/
inductive Order where
  | testConnection
  | invoke (capabilityId : String) (parameters : Json) (dryRun : Bool)

inductive Call where
  /-- `_envelope_problem`, of a call that is claimed to have this id. -/
  | accept (call : Json) (claimedId : String)
  /-- Whether the file of the kill switch exists. -/
  | killSwitch
  | held (connectorId : String)
  | closeHeld (connectorId : String)
  /-- The connector's class is called. -/
  | build (connector : Built)
  | hold (connectorId : String) (held : Held)
  /-- The connector is given the call to carry out. -/
  | carryOut (connector : Built) (order : Order)
  /-- `GrantCheck.redeem` -/
  | redeem (grant : Option Json) (context : List String) (capabilityId : String) (parameters : Json)
  | resolve (reference : String) (fresh : Bool)
  | send (message : Json)
  /-- The slots of the credentials that the connector has used. -/
  | used (connector : Built)
  /-- Whether one of them has changed. -/
  | changed (connector : Built)
  /-- `_return` -/
  | giveBack (callId outcome : String) (result : Json)

/-- A call that is made for an item that was handed over. -/
structure Op where
  item : Json
  call : Call

def Call.Ans : Call → Type
  | .accept .. => Except Exn String
  | .killSwitch => Bool
  | .held _ => Option Held
  | .closeHeld _ | .hold .. | .carryOut .. | .giveBack .. => Unit
  | .build _ | .redeem .. => Except Exn Unit
  | .resolve .. => Except Exn String
  | .send _ => Except Exn Json
  | .used _ => List String
  | .changed _ => Bool

def Calls : Signature := ⟨Op, fun o => o.call.Ans⟩

abbrev Prog (α : Type) := Program Calls Exn α

def ask (item : Json) (call : Call) : Prog call.Ans := Program.op (E := Calls) ⟨item, call⟩

/-! ## Whether the call is one to make -/

/-- `keys.verify` -/
def Site.verify (site : Site) (domain text signature : String) : Bool :=
  match fromHex signature with
  | some bytes => site.accepts site.dispatchKey (domain ++ "\n" ++ text) bytes
  | none => false

/-- `value == 1` -/
def isOne : Json → Bool
  | .int n => n = 1
  | .float q => q = 1
  | .bool b => b
  | _ => false

def isText : Option Json → Bool
  | some (.str _) => true
  | _ => false

def isObject : Option Json → Bool
  | some (.obj _) => true
  | _ => false

/-- `isinstance(value, (int, float))` -/
def isNumber : Option Json → Bool
  | some (.int _) | some (.float _) | some (.bool _) => true
  | _ => false

def kinds : List String := ["invoke", "dry_run", "test"]

/-- `float(value)`, of a number. -/
def Site.toFloat (site : Site) : Json → Option Rat
  | .int n => site.floatOf n
  | .float q => some q
  | .bool b => some (if b then 1 else 0)
  | _ => none

/-- A text that the call gives; `""` where it gives none. -/
def textOf (call : Json) (key : String) : String :=
  match call.get? key with
  | some (.str s) => s
  | _ => ""

/-- What `_envelope_problem` asks of the form of a call. -/
def wellFormed (call : Json) : Bool :=
  isText (call.get? "call_id") && isText (call.get? "connector_id") &&
    isText (call.get? "capability_id") && isObject (call.get? "parameters") &&
    isObject (call.get? "context") && isObject (call.get? "connection") &&
    isObject ((call.getD "connection" .null).get? "config") &&
    isObject ((call.getD "connection" .null).get? "secret_refs") &&
    isNumber (call.get? "expires_at") && isText (call.get? "kind") &&
    kinds.contains (textOf call "kind") &&
    ["run_id", "step_id", "purpose"].all fun k =>
      ((call.getD "context" .null).get? k).isSome

/-- The calls that were accepted, with the instants they expire at. -/
abbrev Seen := List (String × Rat)

/-- The record of a call that is accepted now: where there are many, those of calls that have
expired are dropped. -/
def remember (now : Rat) (seen : Seen) (callId : String) (expires : Rat) : Seen :=
  (if seenLimit ≤ seen.length then seen.filter fun k => now < k.2 else seen) ++ [(callId, expires)]

/-- `_envelope_problem`: why a signed call is still not one to make, or an empty text. -/
def Site.envelopeProblem (site : Site) (now : Rat) (seen : Seen) (call : Json) (claimedId : String) :
    Except Exn String × Seen :=
  if !call.isObj || !isOne (call.getD "v" .null) then
    (.ok "the call is in a version this runner does not know", seen)
  else if !wellFormed call then
    (.ok "the call is not in a form this runner accepts", seen)
  else if textOf call "call_id" ≠ claimedId then
    (.ok "the call's id does not match the one it was handed over under", seen)
  else match site.parseUuid (site.texts.builtins.str (call.getD "tenant_id" .null)) with
    | none => (.ok "the call does not say which tenant it is for", seen)
    | some tenantId =>
      if site.tenantId.any (tenantId ≠ ·) then (.ok "the call is for another tenant", seen)
      else match site.toFloat (call.getD "expires_at" .null) with
        | none => (.error (.other "OverflowError"), seen)
        | some expires =>
          if expires ≤ now then (.ok "the call has expired", seen)
          else if seen.any (·.1 = textOf call "call_id") then
            (.ok "the call has already been made by this runner", seen)
          else (.ok "", remember now seen (textOf call "call_id") expires)

/-! ## Making a call with a connector -/

section Connector
variable (site : Site) (item : Json)

/-- `Ceiling.kill_switch_on` -/
def killSwitchOn : Prog Bool :=
  if site.ceiling.killSwitchFile = "" then pure false else ask item .killSwitch

/-- `Connector.secret`: the value that the slot's reference points at. -/
def secret (connector : Built) (slot : String) (fresh : Bool) : Prog String :=
  match connector.secretRefs.lookup slot with
  | none => pure ""
  | some reference =>
    if reference = "" then pure ""
    else do
      let value : Except Exn String ← ask item (.resolve reference fresh)
      Program.ofExcept value

/-- An operation of the connector's code. -/
def codeOp (connector : Built) : (o : CodeOp) → Prog (Code.Ans o)
  | .secret slot fresh => secret item connector slot fresh
  | .send message => ask item (.send message)

/-- The code of a connector. -/
def runCode (connector : Built) (task : Task) : Prog Result :=
  (site.code connector task).translate (codeOp item connector)

/-- Every slot is read again. -/
def rereads (connector : Built) : List String → Prog Unit
  | [] => pure ()
  | slot :: slots => do
    let _ ← secret item connector slot true
    rereads connector slots

/-- `_credentials_changed` -/
def credentialsChanged (connector : Built) : Prog Bool := do
  let slots : List String ← ask item (.used connector)
  if slots.isEmpty then pure false
  else do
    rereads item connector slots
    ask item (.changed connector)

/-- `_allow_list_problems`, of one parameter. -/
def allowListProblem (connector : Built) (parameters : Json) (binding : AllowListBinding) :
    Option String :=
  let str := site.texts.builtins.str
  let value := parameters.get? binding.parameter
  let allowed := ((connector.config.getD binding.configKey .null).elements).getD []
  let listed (agrees : Json → Bool) : Option String :=
    if allowed.any agrees then none
    else some ("parameter '" ++ binding.parameter ++ "' is not on allow list '" ++
      binding.configKey ++ "'")
  if Ceiling.blank value then none
  else if allowed.isEmpty then
    some ("parameter '" ++ binding.parameter ++ "' is refused: allow list '" ++
      binding.configKey ++ "' is empty")
  else if binding.matching = "exact" then listed fun a => str (value.getD .null) = str a
  else if binding.matching = "pattern" then
    listed fun a => site.texts.fnmatchcase (str (value.getD .null)) (str a)
  else none

/-- `Connector.refusals` -/
def refusals (connector : Built) (capability : Capability) (parameters : Json) : List String :=
  site.schemaProblems capability parameters ++
    capability.allowLists.filterMap (allowListProblem site connector parameters)

/-- `except SecretError`: a credential that cannot be read fails the call. -/
def orUnavailable (p : Prog Result) : Prog Result :=
  p.tryCatch fun
    | .secret message =>
      pure { success := false, error := "credential unavailable: " ++ message }
    | e => throw e

/-- `_Verifier.redeem` -/
def redeem (grant : Option Json) (context : List String) (capabilityId : String)
    (parameters : Json) : Prog Unit := do
  let on ← killSwitchOn site item
  if on then throw (.writeNotAuthorized "the runner's kill switch is on")
  else if !site.writes then
    throw (.writeNotAuthorized "this runner has no grant key, so it makes no write")
  else do
    let answer : Except Exn Unit ← ask item (.redeem grant context capabilityId parameters)
    Program.ofExcept answer

/-- `_invoke_write` -/
def invokeWrite (connector : Built) (capability : Capability) (parameters : Json)
    (context : List String) (grant : Option Json) (dryRun : Bool) : Prog Result :=
  if !dryRun ∧ grant = none then
    throw (.writeNotAuthorized ("'" ++ capability.id ++
      "' is a write and needs a grant from the policy engine"))
  else if !(refusals site connector capability parameters).isEmpty then
    throw (.refused ("; ".intercalate (refusals site connector capability parameters)))
  else orUnavailable (
    if dryRun then
      if !capability.supportsDryRun then
        throw (.refused ("'" ++ capability.id ++ "' has no dry run"))
      else runCode site item connector (.dryRun capability parameters)
    else do
      redeem site item grant context capability.id parameters
      runCode site item connector (.executeWrite capability parameters))

/-- `Connector.invoke`, of a connector whose class has the manifest. -/
def invoke (connector : Built) (manifest : Manifest) (capabilityId : String) (parameters : Json)
    (context : List String) (grant : Option Json) (dryRun : Bool) : Prog Result :=
  match manifest.capability capabilityId with
  | none => throw (.lookup (connector.connectorId ++ " has no capability '" ++ capabilityId ++ "'"))
  | some capability =>
    if capability.kind = .write then
      invokeWrite site item connector capability parameters context grant dryRun
    else if !(refusals site connector capability parameters).isEmpty then
      throw (.refused ("; ".intercalate (refusals site connector capability parameters)))
    else orUnavailable (do
      let result ← runCode site item connector (.execute capability parameters)
      if result.success then pure result
      else do
        let rotated ← credentialsChanged item connector
        if rotated then runCode site item connector (.execute capability parameters)
        else pure result)

/-- The settings that a connector is built with: the runner's own connection, where it has one. -/
def settingsFor (connectorId : String) (config : Json) (refs : List (String × String)) :
    Json × List (String × String) :=
  match site.ceiling.connections.lookup connectorId with
  | some l => (l.config, l.secretRefs)
  | none => (config, refs)

/-- The connector that these settings make. -/
def builtWith (connectorId : String) (settings : Json × List (String × String)) : Built :=
  ⟨connectorId, settings.1, if site.mocks.contains connectorId then [] else settings.2⟩

/-- A new connector, kept from then on. -/
def build (connectorId : String) (settings : Json × List (String × String)) (key : String) :
    Prog Built := do
  let built := builtWith site connectorId settings
  let answer : Except Exn Unit ← ask item (.build built)
  match answer with
  | .error (.secret message) =>
    throw (.refused ("the connection's settings are not usable: " ++ message))
  | .error e => throw e
  | .ok () =>
    let _ ← ask item (.hold connectorId ⟨key, built⟩)
    pure built

/-- `_connector` -/
def connectorFor (connectorId : String) (config : Json) (refs : List (String × String)) :
    Prog Built := do
  let settings := settingsFor site connectorId config refs
  let key := site.digest (.arr [settings.1, .obj (settings.2.map fun r => (r.1, .str r.2))])
  let held : Option Held ← ask item (.held connectorId)
  match held with
  | none => build site item connectorId settings key
  | some h =>
    if h.digest = key then pure h.connector
    else do
      let _ ← ask item (.closeHeld connectorId)
      build site item connectorId settings key

/-! ## Making one call -/

/-- `Grant.from_dict` -/
def grantOf (data : Json) : Option Json :=
  let fields := ["decision_id", "tenant_id", "run_id", "step_id", "capability_id", "call_digest",
    "nonce", "signature"]
  if data.isObj && data.keys.length = 9 && fields.all (fun f => isText (data.get? f)) then
    match data.get? "expires_at" with
    | some (.int _) | some (.float _) => some data
    | _ => none
  else none

/-- `result_to_wire` -/
def toWire (result : Result) : Except Exn Json :=
  let data := if result.data.isObj then result.data else .obj []
  if 96 * 1024 < site.canonicalLength data then .error (.other "ValueError")
  else
    let cut (text : String) (n : Nat) : Json := .str (String.ofList (text.toList.take n))
    .ok (.obj [("success", .bool result.success), ("data", data),
      ("raw_output", cut result.rawOutput (64 * 1024)), ("error", cut result.error 2000),
      ("evidence_snippet", cut result.evidenceSnippet (16 * 1024))])

/-- An answer that says why there is no result. -/
def without (outcome message : String) : String × Json := (outcome, .obj [("error", .str message)])

/-- What the call is invoked with, and how it may end. -/
def invokeCall (connector : Built) (manifest : Manifest) (call : Json) (tenantId : String) :
    Prog (String × Json) := do
  let context := call.getD "context" .null
  let text (key : String) : String := site.texts.builtins.str (context.getD key .null)
  let outcome : Except Exn Result ← Program.attempt (match call.get? "grant" with
    | none => throw (.lookup "'grant'")
    | some grant => do
      let capabilityId := textOf call "capability_id"
      let parameters := call.getD "parameters" .null
      let dryRun := textOf call "kind" = "dry_run"
      let _ ← ask item (.carryOut connector (.invoke capabilityId parameters dryRun))
      invoke site item connector manifest capabilityId parameters
        [tenantId, text "run_id", text "step_id", text "purpose"] (grantOf grant) dryRun)
  match outcome with
  | .error (.writeNotAuthorized message) => pure (without "not_authorized" message)
  | .error (.refused message) => pure (without "refused" message)
  | .error (.lookup message) => pure (without "unknown" message)
  | .error e => throw e
  | .ok result => match toWire site result with
    | .error _ => pure (without "error" "the result is too large to return")
    | .ok wire => pure ("ok", wire)

/-- Whether the switch is on, as far as it matters for the capability. -/
def switchFor (capability : Capability) : Prog Bool :=
  if capability.kind = .write then killSwitchOn site item else pure false

/-- A call of a capability, within the ceiling. -/
def makeCapability (manifest : Manifest) (call : Json) (refs : List (String × String)) :
    Prog (String × Json) :=
  let connectorId := textOf call "connector_id"
  let capabilityId := textOf call "capability_id"
  let parameters := call.getD "parameters" .null
  match manifest.capability capabilityId with
  | none =>
    pure (without "unknown" (connectorId ++ " has no capability '" ++ capabilityId ++ "'"))
  | some capability =>
    match site.ceiling.refuseCapability site.texts capability with
    | some reason => pure (without "refused" reason)
    | none => do
      let on ← switchFor site item capability
      if on then pure (without "refused" "the runner's kill switch is on")
      else match site.ceiling.refuseTargets site.texts capability connectorId parameters refs with
        | some reason => pure (without "refused" reason)
        | none => do
          let connector ← connectorFor site item connectorId
            ((call.getD "connection" .null).getD "config" .null) refs
          match call.get? "tenant_id" with
          | some (.str text) => match site.parseUuid text with
            | some tenantId => invokeCall site item connector manifest call tenantId
            | none => throw (.other "ValueError")
          | _ => throw (.other "AttributeError")

/-- A test of a connection, within the ceiling. -/
def makeTest (call : Json) (refs : List (String × String)) : Prog (String × Json) :=
  let connectorId := textOf call "connector_id"
  match site.ceiling.refuseTest connectorId refs with
  | some reason => pure (without "refused" reason)
  | none => do
    let connector ← connectorFor site item connectorId
      ((call.getD "connection" .null).getD "config" .null) refs
    let _ ← ask item (.carryOut connector .testConnection)
    let result ← runCode site item connector .testConnection
    pure ("ok", .obj [("checks", result.data)])

/-- The references that the call names. -/
def refsOf (call : Json) : List (String × String) :=
  match (call.getD "connection" .null).getD "secret_refs" .null with
  | .obj fields => fields.map fun f => (f.1, site.texts.builtins.str f.2)
  | _ => []

/-- A call that is one to make. -/
def makeAdmitted (call : Json) : Prog (String × Json) :=
  let connectorId := textOf call "connector_id"
  match site.registry connectorId with
  | some manifest =>
    if manifest.family ≠ .operations then
      pure (without "unknown" ("this runner has no connector '" ++ connectorId ++ "'"))
    else if textOf call "kind" = "test" then makeTest site item call (refsOf site call)
    else makeCapability site item manifest call (refsOf site call)
  | none => pure (without "unknown" ("this runner has no connector '" ++ connectorId ++ "'"))

/-- `_make` -/
def make (claimedId : String) : Prog (String × Json) :=
  match item.get? "envelope", item.get? "signature" with
  | some (.str text), some (.str signature) =>
    if !site.verify callDomain text signature then
      pure (without "refused" "the call was not signed by the control plane")
    else match site.loads text with
      | none => pure (without "refused" "the call could not be read")
      | some call => do
        let problem : Except Exn String ← ask item (.accept call claimedId)
        match problem with
        | .error e => throw e
        | .ok problem =>
          if problem ≠ "" then pure (without "refused" problem)
          else makeAdmitted site item call
  | _, _ => pure (without "refused" "the call is not in a form this runner accepts")

/-- The exceptions that end a call, by name. -/
def Exn.name : Exn → String
  | writeNotAuthorized _ => "WriteNotAuthorized"
  | refused _ => "Refused"
  | lookup _ => "LookupError"
  | secret _ => "SecretError"
  | other name => name

/-- `_handle` -/
def handle : Prog Unit :=
  let callId := if item.isObj then site.texts.builtins.str (item.getD "id" (.str "")) else ""
  if callId = "" then pure ()
  else do
    let outcome : Except Exn (String × Json) ← Program.attempt (make site item callId)
    let (outcome, result) := match outcome with
      | .ok answer => answer
      | .error e => without "error" ("runner error: " ++ e.name)
    ask item (.giveBack callId outcome result)

end Connector

/-! ## The process -/

/-- The latest reading of the clock, the calls that were accepted, and the connectors in use. -/
structure State where
  clock : Rat
  seen : Seen := []
  held : List (String × Held) := []

/-- What the environment settles. -/
structure Choice where
  reading : Rat := 0
  flag : Bool := false
  done : Except Exn Unit := .ok ()
  value : Except Exn String := .ok ""
  reply : Except Exn Json := .ok .null
  slots : List String := []

/-- What a call answers and leaves. -/
def Site.run (site : Site) (call : Call) (ch : Choice) (s : State) : call.Ans × State :=
  match call with
  | .accept call claimedId =>
    let (answer, seen) := site.envelopeProblem ch.reading s.seen call claimedId
    (answer, { s with clock := ch.reading, seen })
  | .killSwitch => (ch.flag, s)
  | .held connectorId => (s.held.lookup connectorId, s)
  | .closeHeld _ => ((), s)
  | .build _ => (ch.done, s)
  | .hold connectorId held =>
    ((), { s with held := (connectorId, held) :: s.held.filter (·.1 ≠ connectorId) })
  | .carryOut .. => ((), s)
  | .redeem .. => (ch.done, s)
  | .resolve .. => (ch.value, s)
  | .send _ => (ch.reply, s)
  | .used _ => (ch.slots, s)
  | .changed _ => (ch.flag, s)
  | .giveBack .. => ((), s)

/-- A runner that is handed any items. -/
def process (site : Site) : System Calls Exn State where
  Choice := Choice
  run _ o ch s := some (site.run o.call ch s)
  Entry p := ∃ item, p = handle site item

end Runner
end L1Agent
