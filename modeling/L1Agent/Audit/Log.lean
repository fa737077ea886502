import L1Agent.Library.HashChain
import L1Agent.Library.JsonText

/-! # The audit log (`audit/log.py`)

One hash chain for each tenant.  An event is appended in the transaction of the change that it
describes; its hash covers what it says and the hash of the event before it.  `verify` computes
the chain again and compares it with the checkpoints that it is given.

A transaction that appends holds the lock of the tenant's chain until it ends (`Ledger.step`).

The text that is hashed is the canonical one, of a payload that has been cleaned of what JSON
does not have; what is found wrong with a row is named as the source names it.
-/
namespace L1Agent
namespace Audit

def genesisHash : String := String.ofList (List.replicate 64 '0')

def maxText : Nat := 2000

/-- What the libraries compute. -/
structure Tools where
  numbers : Json.Numbers
  builtins : Builtins
  /-- SHA-256 of a text in ASCII, in hexadecimal. -/
  sha256 : String → String
  /-- `hmac.new(key, message, hashlib.sha256).hexdigest()` -/
  hmac : String → String → String
  /-- `redact_text` -/
  redact : String → String

/-- `Actor` -/
structure Actor where
  type : String
  id : String
  deriving DecidableEq, Repr

/-- A row of `audit_events`. -/
structure Row where
  tenantId : String
  seq : Int
  occurredAt : String
  actorType : String
  actorId : String
  correlationId : String
  eventType : String
  payload : String
  prevHash : String
  hash : String
  deriving DecidableEq, Repr

/-- The settings of `canonical`. -/
def canonicalOptions : Json.DumpOptions :=
  { sortKeys := true, itemSeparator := ",", keySeparator := ":", ensureAscii := true }

section Log
variable (tools : Tools)

/-- `canonical` -/
def canonical (value : Json) : String := Json.dumps tools.numbers canonicalOptions value

/-- `digest` -/
def digest (value : Json) : String := tools.sha256 (canonical tools value)

mutual

/-- `clean` -/
def clean : Json → Json
  | .str s => .str (String.ofList ((tools.redact s).toList.take maxText))
  | .obj fields => .obj (cleanFields fields)
  | .arr items => .arr (cleanItems items)
  | v => v

def cleanItems : List Json → List Json
  | [] => []
  | v :: vs => clean v :: cleanItems vs

def cleanFields : List (String × Json) → List (String × Json)
  | [] => []
  | (k, v) :: fields => (k, clean v) :: cleanFields fields

end

/-- What the hash of an event covers. -/
def eventBody (tenantId : String) (seq : Int) (occurredAt actorType actorId correlationId
    eventType payload prevHash : String) : Json :=
  .obj [("tenant_id", .str tenantId), ("seq", .int seq), ("occurred_at", .str occurredAt),
    ("actor_type", .str actorType), ("actor_id", .str actorId),
    ("correlation_id", .str correlationId), ("event_type", .str eventType),
    ("payload", .str payload), ("prev_hash", .str prevHash)]

/-- `event_hash` -/
def eventHash (tenantId : String) (seq : Int) (occurredAt actorType actorId correlationId
    eventType payload prevHash : String) : String :=
  tools.sha256 (canonical tools (eventBody tenantId seq occurredAt actorType actorId correlationId
    eventType payload prevHash))

/-- What is given to `append`; the clock is read in it. -/
structure Request where
  tenantId : String
  actor : Actor
  eventType : String
  payload : Json := .null
  correlationId : String := ""
  occurredAt : String
  deriving DecidableEq

/-- The head of the tenant's chain, among the rows that are seen. -/
def head (rows : List Row) (tenantId : String) : Option Row :=
  HashChain.highest Row.seq (rows.filter (·.tenantId = tenantId))

/-- `append`: the row that is inserted. -/
def append (rows : List Row) (r : Request) : Row :=
  let head := head rows r.tenantId
  let seq := match head with
    | some row => row.seq + 1
    | none => 1
  let prevHash := match head with
    | some row => row.hash
    | none => genesisHash
  let payload := canonical tools (clean tools (r.payload.orElse (.obj [])))
  { tenantId := r.tenantId
    seq
    occurredAt := r.occurredAt
    actorType := r.actor.type
    actorId := r.actor.id
    correlationId := r.correlationId
    eventType := r.eventType
    payload
    prevHash
    hash := eventHash tools r.tenantId seq r.occurredAt r.actor.type r.actor.id r.correlationId
      r.eventType payload prevHash }

/-! ## Verification -/

/-- `VerifyResult` -/
structure VerifyResult where
  tenantId : String
  eventsChecked : Nat := 0
  headSeq : Int := 0
  headHash : String := genesisHash
  problems : List String := []
  deriving DecidableEq, Repr

/-- `VerifyResult.ok` -/
def VerifyResult.ok (result : VerifyResult) : Bool := result.problems.isEmpty

/-- How far the rows have been gone through. -/
structure Progress where
  result : VerifyResult
  hashes : List (Int × String) := []
  expectedSeq : Int := 1
  prevHash : String := genesisHash

/-- What is wrong with a row. -/
def rowProblems (tenantId : String) (expectedSeq : Int) (prevHash : String) (row : Row) :
    List String :=
  (if row.seq ≠ expectedSeq then
    [s!"sequence gap: expected {expectedSeq}, found {row.seq} (events removed)"] else []) ++
  (if row.prevHash ≠ prevHash then
    [s!"event {row.seq}: does not follow the event before it"] else []) ++
  (if eventHash tools tenantId row.seq row.occurredAt row.actorType row.actorId row.correlationId
      row.eventType row.payload row.prevHash ≠ row.hash then
    [s!"event {row.seq}: content does not match its hash"] else [])

/-- The loop over the rows: one of them. -/
def checkRow (tenantId : String) (p : Progress) (row : Row) : Progress where
  result := { p.result with
    eventsChecked := p.result.eventsChecked + 1
    headSeq := row.seq
    headHash := row.hash
    problems := p.result.problems ++ rowProblems tools tenantId p.expectedSeq p.prevHash row }
  hashes := (row.seq, row.hash) :: p.hashes
  expectedSeq := row.seq + 1
  prevHash := row.hash

/-- `sign_checkpoint` -/
def signCheckpoint (key tenantId : String) (seq : Int) (headHash : String) : String :=
  tools.hmac key (tenantId ++ ":" ++ toString seq ++ ":" ++ headHash)

/-- What is wrong according to a checkpoint; `none` where reading it raises. -/
def checkpointProblems (tenantId key : String) (hashes : List (Int × String)) (cp : Json) :
    Option (List String) :=
  let str := tools.builtins.str
  if str (cp.getD "tenant_id" .null) ≠ tenantId then some []
  else (tools.builtins.toInt (cp.getD "seq" (.int 0))).bind fun seq =>
    let cpHash := str (cp.getD "hash" (.str ""))
    let signature := str (cp.getD "signature" (.str ""))
    if key ≠ "" ∧ (Literals.ascii? signature).isNone then none
    else if key ≠ "" ∧ signCheckpoint tools key tenantId seq cpHash ≠ signature then
      some [s!"checkpoint at {seq}: signature is not valid"]
    else if seq = 0 then some []
    else match hashes.lookup seq with
      | none => some [s!"checkpoint at {seq}: the chain no longer reaches this event"]
      | some hash =>
        if hash ≠ cpHash then some [s!"checkpoint at {seq}: the chain was rewritten"] else some []

/-- The rows of the tenant, by their numbers. -/
def chain (rows : List Row) (tenantId : String) : List Row :=
  (rows.filter (·.tenantId = tenantId)).mergeSort fun a b => a.seq ≤ b.seq

/-- `verify`; `none` where reading a checkpoint raises. -/
def verify (tenantId : String) (checkpoints : List Json) (key : String) (rows : List Row) :
    Option VerifyResult :=
  let p := (chain rows tenantId).foldl (checkRow tools tenantId) { result := { tenantId } }
  (checkpoints.mapM (checkpointProblems tools tenantId key p.hashes)).map fun found =>
    { p.result with problems := p.result.problems ++ found.flatten }

/-- `checkpoint`; `none` where it is refused. -/
def checkpoint (tenantId key createdAt : String) (rows : List Row) : Option Json :=
  (verify tools tenantId [] "" rows).bind fun result =>
    if !result.ok then none
    else some (.obj [("tenant_id", .str tenantId), ("seq", .int result.headSeq),
      ("hash", .str result.headHash), ("created_at", .str createdAt),
      ("signature", .str (signCheckpoint tools key tenantId result.headSeq result.headHash))])

/-! ## Transactions -/

/-- The rows that are committed, and those of the open transactions. -/
structure Ledger where
  rows : List Row := []
  pending : List (Nat × Row) := []

/-- What a transaction does with the log. -/
inductive Act where
  | append (txn : Nat) (r : Request)
  | commit (txn : Nat)
  | rollback (txn : Nat)

/-- The rows that a transaction has inserted. -/
def Ledger.inserted (l : Ledger) (txn : Nat) : List Row :=
  (l.pending.filter (·.1 = txn)).map Prod.snd

/-- The rows of the other transactions. -/
def Ledger.others (l : Ledger) (txn : Nat) : List (Nat × Row) := l.pending.filter (·.1 ≠ txn)

/-- Another transaction holds the lock of the tenant's chain. -/
def Ledger.locked (l : Ledger) (txn : Nat) (tenantId : String) : Bool :=
  (l.others txn).any (·.2.tenantId = tenantId)

/-- One step; `none` where the transaction has to wait for the lock. -/
def Ledger.step (l : Ledger) : Act → Option Ledger
  | .append txn r =>
    if l.locked txn r.tenantId then none
    else some { l with
      pending := l.pending ++ [(txn, Audit.append tools (l.rows ++ l.inserted txn) r)] }
  | .commit txn => some ⟨l.rows ++ l.inserted txn, l.others txn⟩
  | .rollback txn => some { l with pending := l.others txn }

/-- The steps of any transactions, in any order. -/
def Ledger.run : Ledger → List Act → Option Ledger
  | l, [] => some l
  | l, act :: acts => (l.step tools act).bind fun l' => l'.run acts

end Log

end Audit
end L1Agent
