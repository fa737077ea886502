import L1Agent.Api.Access
import L1Agent.Library.Handover
import L1Agent.Library.Json
import Mathlib.Data.List.Sort

/-! # The queue of calls to the runners (`runner/store.py`)

A call is `queued` until a runner claims it, `claimed` until the runner returns a result, then
`done`; a call that nobody has claimed may be `cancelled`.  Each function of the store is one
transaction.  A claim skips the rows that another transaction holds, which are the environment's
choice, and so is the order of rows of the same age.  Instants are in seconds.

A transaction gives its answer and the queue that it leaves; what it does to one row is a
`Change` (`Runner/Stages.lean`).
-/
namespace L1Agent
namespace Dispatch
open Handover
open Access (RunnerIdentity)

inductive CallStatus where
  | queued | claimed | done | cancelled
  deriving DecidableEq, Repr

/-- The columns `outcome` and `result`, which are set together. -/
structure Answer where
  outcome : String
  result : Json
  deriving DecidableEq

/-- A row of `runner_calls`. -/
structure CallRow where
  id : Nat
  tenantId : String
  kind : String
  connectorId : String
  capabilityId : String
  isWrite : Bool
  envelope : String
  signature : String
  status : CallStatus
  runnerId : Option String := none
  answer : Option Answer := none
  createdAt : Rat
  deadline : Rat
  deriving DecidableEq

/-- `Claimed` -/
structure Claimed where
  id : Nat
  envelope : String
  signature : String
  isWrite : Bool
  deriving DecidableEq

def CallRow.handed (row : CallRow) : Claimed :=
  { id := row.id, envelope := row.envelope, signature := row.signature, isWrite := row.isWrite }

/-- What `enqueue` is given. -/
structure NewCall where
  id : Nat
  tenantId : String
  kind : String
  connectorId : String
  capabilityId : String
  isWrite : Bool
  envelope : String
  signature : String
  deadline : Rat
  deriving DecidableEq

/-- The row that is inserted. -/
def NewCall.row (call : NewCall) (now : Rat) : CallRow :=
  { id := call.id, tenantId := call.tenantId, kind := call.kind, connectorId := call.connectorId,
    capabilityId := call.capabilityId, isWrite := call.isWrite, envelope := call.envelope,
    signature := call.signature, status := .queued, createdAt := now, deadline := call.deadline }

/-- A "runner.write_handed_over" event of the audit log. -/
structure HandOver where
  tenantId : String
  /-- The id of the runner as an actor. -/
  actorId : String
  payload : Json
  correlationId : String
  deriving DecidableEq

/-- `STALE` -/
def stale : Rat := 30 * 60

/-- What the transactions of the queue read and write. -/
structure Queue where
  rows : List CallRow := []
  /-- The kill switches: the platform's, and the tenants' that are on. -/
  globalSwitch : Bool := false
  tenantSwitches : List String := []
  audit : List HandOver := []

/-- The row with this id. -/
def Queue.row? (q : Queue) (id : Nat) : Option CallRow := q.rows.find? fun row => row.id = id

/-- An `UPDATE`, with its `rowcount` as a truth value. -/
def Queue.update (q : Queue) (hit : CallRow → Bool) (f : CallRow → CallRow) : Bool × Queue :=
  (q.rows.any hit, { q with rows := q.rows.map fun row => if hit row then f row else row })

/-- The rows that a claim takes. -/
def Queue.waiting (q : Queue) (now : Rat) (tenantId : String) (limit : Int) (locked : List Nat) :
    List CallRow :=
  ((q.rows.filter fun row => row.tenantId = tenantId ∧ row.status = .queued ∧ now < row.deadline ∧
    row.id ∉ locked).insertionSort fun a b => a.createdAt ≤ b.createdAt).take (max 1 limit).toNat

/-- A call that a runner may answer: one that is claimed, and by this runner where one is named. -/
def CallRow.answerable (row : CallRow) (tenantId : String) (id : Nat) (runnerId : Option String) :
    Bool :=
  row.tenantId = tenantId ∧ row.id = id ∧ row.status = .claimed ∧
    (runnerId = none ∨ row.runnerId = runnerId)

/-- A call that no runner has taken. -/
def CallRow.cancellable (row : CallRow) (tenantId : String) (id : Nat) : Bool :=
  row.tenantId = tenantId ∧ row.id = id ∧ row.status = .queued

def CallRow.claimedBy (row : CallRow) (runner : RunnerIdentity) : CallRow :=
  { row with status := .claimed, runnerId := some runner.id }

def CallRow.answeredWith (row : CallRow) (answer : Answer) : CallRow :=
  { row with status := .done, answer := some answer }

def CallRow.withdrawn (row : CallRow) : CallRow := { row with status := .cancelled }

/-- The transactions, by the functions they are the bodies of. -/
inductive DbCall where
  | enqueue (now : Rat) (call : NewCall)
  | claim (now : Rat) (runner : RunnerIdentity) (limit : Int)
  | recordResult (tenantId : String) (id : Nat) (reply : Answer) (runnerId : Option String)
  | cancel (tenantId : String) (id : Nat)
  | answer (tenantId : String) (id : Nat)
  | remove (tenantId : String) (id : Nat)
  /-- `seen`; the row of the runner is not one of the queue. -/
  | seen (runner : RunnerIdentity) (reported : Json)
  /-- `action_store.switches_on` -/
  | switchesOn (tenantId : String)
  /-- `_record_hand_over` -/
  | handOver (event : HandOver)
  /-- Somebody sets the platform's kill switch, or the one of a tenant. -/
  | setSwitch (tenantId : Option String) (on : Bool)
  deriving DecidableEq

abbrev DbCall.Val : DbCall → Type
  | claim .. => List Claimed
  | recordResult .. | cancel .. => Bool
  | answer .. => Option Answer
  | switchesOn _ => List String
  | enqueue .. | remove .. | seen .. | handOver _ | setSwitch .. => Unit

/-- What a transaction answers and leaves; `none` where it fails by itself. -/
def DbCall.run (locked : List Nat) (q : Queue) : (c : DbCall) → Option (c.Val × Queue)
  | enqueue now call =>
    let kept := q.rows.filter fun row =>
      ¬ (row.tenantId = call.tenantId ∧ row.deadline < now - stale)
    -- The id is the primary key.
    if kept.any fun row => row.id = call.id then none
    else some ((), { q with rows := kept ++ [call.row now] })
  | claim now runner limit =>
    let found := q.waiting now runner.tenantId limit locked
    some (found.map CallRow.handed,
      (q.update (fun row => row.id ∈ found.map (·.id)) fun row => row.claimedBy runner).2)
  | recordResult tenantId id reply runnerId =>
    some (q.update (fun row => row.answerable tenantId id runnerId) fun row =>
      row.answeredWith reply)
  | cancel tenantId id =>
    some (q.update (fun row => row.cancellable tenantId id) CallRow.withdrawn)
  | answer tenantId id =>
    some ((q.rows.find? fun row => row.tenantId = tenantId ∧ row.id = id).bind fun row =>
      if row.status = .done then row.answer else none, q)
  | remove tenantId id =>
    some ((), { q with rows := q.rows.filter fun row => ¬ (row.tenantId = tenantId ∧ row.id = id) })
  | seen .. => some ((), q)
  | switchesOn tenantId =>
    some ((if q.globalSwitch then ["global"] else []) ++
      (if tenantId ∈ q.tenantSwitches then ["tenant"] else []), q)
  | handOver event => some ((), { q with audit := q.audit ++ [event] })
  | setSwitch none on => some ((), { q with globalSwitch := on })
  | setSwitch (some tenantId) on =>
    let others := q.tenantSwitches.filter (· ≠ tenantId)
    some ((), { q with tenantSwitches := if on then tenantId :: others else others })

end Dispatch
end L1Agent
