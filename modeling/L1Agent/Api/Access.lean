import L1Agent.Library.Literals
import L1Agent.Library.Past

/-! # Signed requests

The webhook and the two routes of the runners take signed requests: `verifyWebhook` and
`verifyRunner` run before the route's handler.  A request is let through when its timestamp is
near the clock, its signature is right, and the signature has not been used: used signatures are
kept in `webhook_nonces`, each for twice the time that a timestamp may be off.

A request's body is read in between, which takes as long as the sender likes.  The clock, the
bodies and the rows of `runners` are the environment's; every order of the requests' steps is a
run of `server`.  Instants are in microseconds.  A timestamp that is too large for a float is
refused as stale here, where the source fails with an error.

Each check is an operation of its own, in the source's order, so that what comes in between is told
apart; the statuses are those of the source's exceptions.
-/
namespace L1Agent
namespace Access
open Interleaving Literals

/-- The kinds of routes that take signed requests. -/
inductive AccessKind where
  | webhook
  | runner
  deriving DecidableEq, Repr

/-- A request, all but its body; `access` is how its route was declared. -/
structure Request where
  access : AccessKind
  method : String
  path : String
  headers : List (String × String)
  deriving DecidableEq, Repr

/-- `request.headers.get(name, "")`. -/
def Request.header (request : Request) (name : String) : String :=
  (request.headers.lookup name).getD ""

def webhookTimestampHeader := "X-L1-Timestamp"
def webhookSignatureHeader := "X-L1-Signature"
def idHeader := "X-Runner-Id"
def timestampHeader := "X-Runner-Timestamp"
def signatureHeader := "X-Runner-Signature"
def requestDomain := "l1-runner-request-v1"
def claimPath := "/runner/v1/claim"
def maxSkewSeconds : Int := 60
def keyIdentity := "key:"

/-- Seconds, in microseconds. -/
def seconds (n : Int) : Int := n * 1000000

structure RunnerIdentity where
  tenantId : String
  id : String
  name : String
  publicKey : Bytes
  deriving DecidableEq, Repr

/-- What is read of a row of `runners`. -/
structure RunnerRow where
  id : String
  name : String
  publicKey : String
  deriving DecidableEq, Repr

inductive Exn where
  | denied (status : Nat) (error reason : String)
  /-- Any other exception. -/
  | crash
  deriving DecidableEq, Repr

/-- The settings, and what the libraries compute. -/
structure Gate where
  webhookOpen : Bool
  webhookSecret : String
  webhookMaxSkewSeconds : Int
  tenantId : String
  /-- HMAC-SHA256 under a secret, in hexadecimal. -/
  hmac : String → Bytes → String
  sha256 : Bytes → String
  /-- `_sha256`, of a text. -/
  textHash : String → String
  /-- Whether a signature is the key's signature of the text. -/
  accepts : Bytes → String → Bytes → Bool
  parsePublic : String → Option Bytes
  publicText : Bytes → String
  parseIdentity : String → Option (String × String)

inductive Call where
  | time
  | utcnow
  | body
  | runnerById (tenantId runnerId : String)
  | runnerByKey (tenantId key : String)
  /-- The transaction of `use_webhook_signature`. -/
  | useSignature (now : Int) (tenantId signature : String) (ttlSeconds : Int)
  /-- The route's handler begins, for a runner and with the body if that has been read. -/
  | handle (runner : Option RunnerIdentity) (body : Option Bytes)
  deriving DecidableEq, Repr

/-- A call that is made for a request. -/
structure Op where
  request : Request
  call : Call
  deriving DecidableEq, Repr

def Call.Ans : Call → Type
  | .time | .utcnow => Int
  | .body => Except Exn Bytes
  | .runnerById .. | .runnerByKey .. => Except Exn (Option RunnerRow)
  | .useSignature .. => Except Exn Bool
  | .handle .. => Unit

def Calls : Signature := ⟨Op, fun o => o.call.Ans⟩

abbrev Prog (α : Type) := Program Calls Exn α

def ask (request : Request) (call : Call) : Prog call.Ans :=
  Program.op (E := Calls) ⟨request, call⟩

/-- `time.time()`. -/
def time (request : Request) : Prog Int := ask request .time

def utcnow (request : Request) : Prog Int := ask request .utcnow

/-- `await request.body()`. -/
def readBody (request : Request) : Prog Bytes := do
  let body : Except Exn Bytes ← ask request .body
  Program.ofExcept body

def readRow (request : Request) (call : Call) (h : call.Ans = Except Exn (Option RunnerRow)) :
    Prog (Option RunnerRow) := do
  let row ← ask request call
  Program.ofExcept (cast h row)

def unauthorized {α : Type} (reason : String) : Prog α :=
  throw (.denied 401 "unauthorized" reason)

/-! ## The checks -/

/-- `sign_webhook`: the timestamp is encoded as ASCII, which may fail. -/
def Gate.signWebhook (gate : Gate) (timestamp : String) (body : Bytes) : Option String :=
  (ascii? timestamp).map fun bytes =>
    "sha256=" ++ gate.hmac gate.webhookSecret (bytes ++ (UInt8.ofNat '.'.toNat :: body))

def Gate.requestMessage (gate : Gate) (method path timestamp : String) (body : Bytes) : String :=
  "\n".intercalate [method.toUpper, path, timestamp, gate.sha256 body]

/-- `keys.verify`. -/
def Gate.verify (gate : Gate) (publicKey : Bytes) (domain message signature : String) : Bool :=
  match fromHex signature with
  | some bytes => gate.accepts publicKey (domain ++ "\n" ++ message) bytes
  | none => false

/-- `use_webhook_signature`. -/
def useWebhookSignature (request : Request) (tenantId signature : String) (ttlSeconds : Int) :
    Prog Bool := do
  let now ← utcnow request
  let fresh : Except Exn Bool ← ask request (.useSignature now tenantId signature ttlSeconds)
  Program.ofExcept fresh

/-- `verify_webhook`, with the body that the request holds from then on. -/
def verifyWebhook (gate : Gate) (request : Request) : Prog (Option Bytes) :=
  if gate.webhookOpen then pure none
  else
    let timestamp := request.header webhookTimestampHeader
    let signature := request.header webhookSignatureHeader
    if timestamp = "" ∨ signature = "" then unauthorized "missing_signature"
    else match parseInt timestamp with
      | none => unauthorized "bad_timestamp"
      | some sentAt => do
        let reading ← time request
        if seconds gate.webhookMaxSkewSeconds < |reading - seconds sentAt| then
          unauthorized "stale_timestamp"
        else do
          let body ← readBody request
          match gate.signWebhook timestamp body with
          | none => throw .crash
          | some expected =>
            if expected ≠ signature then unauthorized "bad_signature"
            else do
              let fresh ← useWebhookSignature request gate.tenantId signature
                (2 * gate.webhookMaxSkewSeconds)
              if fresh then pure (some body) else unauthorized "replay"

/-- `runner_store.find`. -/
def find (gate : Gate) (request : Request) (tenantId runnerId : String) :
    Prog (Option RunnerIdentity) := do
  let row ← readRow request (.runnerById tenantId runnerId) rfl
  match row with
  | none => pure none
  | some row => match gate.parsePublic row.publicKey with
    | none => pure none
    | some key => pure (some ⟨tenantId, runnerId, row.name, key⟩)

/-- `runner_store.find_by_key`. -/
def findByKey (gate : Gate) (request : Request) (tenantId publicKey : String) :
    Prog (Option RunnerIdentity) :=
  match gate.parsePublic publicKey with
  | none => pure none
  | some key => do
    let row ← readRow request (.runnerByKey tenantId (gate.publicText key)) rfl
    match row with
    | none => pure none
    | some row => pure (some ⟨tenantId, row.id, row.name, key⟩)

/-- The runner that a request names. -/
def findPresented (gate : Gate) (request : Request) (presented : String) :
    Prog (Option RunnerIdentity) :=
  if presented.startsWith keyIdentity then
    findByKey gate request gate.tenantId (presented.drop keyIdentity.length).toString
  else match gate.parseIdentity presented with
    | none => unauthorized "bad_credentials"
    | some (tenantId, runnerId) =>
      if tenantId ≠ gate.tenantId then unauthorized "bad_credentials"
      else find gate request tenantId runnerId

/-- `verify_runner`, with the body that the request holds from then on. -/
def verifyRunner (gate : Gate) (request : Request) : Prog (RunnerIdentity × Bytes) :=
  let presented := request.header idHeader
  let timestamp := request.header timestampHeader
  let signature := request.header signatureHeader
  if presented = "" ∨ timestamp = "" ∨ signature = "" then unauthorized "missing_signature"
  else match parseInt timestamp with
    | none => unauthorized "bad_timestamp"
    | some sentAt => do
      let reading ← time request
      if seconds maxSkewSeconds < |reading - seconds sentAt| then
        unauthorized "stale_timestamp"
      else do
        let found ← findPresented gate request presented
        match found with
        | none => unauthorized "bad_credentials"
        | some found => do
          let body ← readBody request
          let message := gate.requestMessage request.method request.path timestamp body
          if gate.verify found.publicKey requestDomain message signature = false then
            unauthorized "bad_signature"
          else do
            let fresh ← useWebhookSignature request found.tenantId signature (2 * maxSkewSeconds)
            if fresh then pure (found, body) else unauthorized "replay"

/-- `authorize`, and then the route's handler. -/
def serve (gate : Gate) (request : Request) : Prog Unit :=
  match request.access with
  | .webhook => do
    let body ← verifyWebhook gate request
    ask request (.handle none body)
  | .runner => do
    let (runner, body) ← verifyRunner gate request
    ask request (.handle (some runner) (some body))

/-! ## The server -/

/-- A row of `webhook_nonces`. -/
structure Nonce where
  tenantId : String
  signatureHash : String
  expiresAt : Int
  deriving DecidableEq, Repr

/-- The latest reading of the clock, and the used signatures. -/
structure Server where
  clock : Int
  nonces : List Nonce
  deriving DecidableEq, Repr

/-- What the environment settles. -/
structure Choice where
  reading : Int := 0
  body : Except Exn Bytes := .ok []
  row : Except Exn (Option RunnerRow) := .ok none
  /-- The transaction fails, and leaves nothing. -/
  fails : Bool := false
  /-- The transaction is carried out, and its answer lost. -/
  lost : Bool := false

/-- The rows that `use_webhook_signature` leaves before it adds its own. -/
def purge (now : Int) (tenantId : String) (nonces : List Nonce) : List Nonce :=
  nonces.filter fun n => ¬ (n.tenantId = tenantId ∧ n.expiresAt < now)

/-- The transaction of `use_webhook_signature`. -/
def Gate.useSignature (gate : Gate) (nonces : List Nonce) (now : Int) (tenantId signature : String)
    (ttlSeconds : Int) : Bool × List Nonce :=
  let kept := purge now tenantId nonces
  let row : Nonce := ⟨tenantId, gate.textHash signature, now + seconds ttlSeconds⟩
  if kept.any fun n => n.tenantId = row.tenantId ∧ n.signatureHash = row.signatureHash then
    (false, kept)
  else (true, kept ++ [row])

/-- The transaction as it goes: what it answers, and what it leaves. -/
def Gate.commit (gate : Gate) (ch : Choice) (s : Server) (now : Int) (tenantId signature : String)
    (ttlSeconds : Int) : Except Exn Bool × Server :=
  if ch.fails then (.error .crash, s)
  else
    let used := gate.useSignature s.nonces now tenantId signature ttlSeconds
    (if ch.lost then .error .crash else .ok used.1, { s with nonces := used.2 })

/-- What a call answers and leaves. -/
def Gate.run (gate : Gate) (call : Call) (ch : Choice) (s : Server) : call.Ans × Server :=
  match call with
  | .time | .utcnow => (ch.reading, { s with clock := ch.reading })
  | .body => (ch.body, s)
  | .runnerById .. | .runnerByKey .. => (ch.row, s)
  | .useSignature now tenantId signature ttlSeconds =>
    gate.commit ch s now tenantId signature ttlSeconds
  | .handle .. => ((), s)

/-- A server that is sent any requests. -/
def server (gate : Gate) : System Calls Exn Server where
  Choice := Choice
  run _ o ch s := some (gate.run o.call ch s)
  Entry p := ∃ request, p = serve gate request

end Access
end L1Agent
