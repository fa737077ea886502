import L1Agent.Connectors.Grant
import L1Agent.Engine.Executor
import L1Agent.Library.Interleaving
import L1Agent.Service.Queue
import L1Agent.Sop.Store

/-! # What the processes share, and what they do to it

The workers, the sweeper and the API are coroutines that give up control at each
transaction and at each remote call.  An `Op` is one such step, `Estate` is what they
act on: the tenant's rows, the tickets, the grants, the clock.

A step may fail with any exception, and a step that failed may still have taken effect
(`landed`): a commit whose acknowledgement was lost, a request whose answer was.  What a
remote party does and answers is settled by the `Choice`.

`deeds` is kept for the statements only.  It is the history of what was done about
actions, in order, each with the coroutine that did it: no program reads it.
-/
namespace L1Agent
open Interleaving

/-! ## The deployment -/

/-- The registry, which has passed its lint: a write says how it is verified. -/
structure Registry where
  capabilities : List Capability := []
  linted : ∀ c ∈ capabilities, c.kind = .write →
    ∃ v, c.verify = some v ∧ 0 ≤ v.retries ∧ v.retries ≤ 60

/-- `capability` -/
def Registry.capability (r : Registry) (id : String) : Option Capability :=
  r.capabilities.find? fun c => c.id == id

/-- `MatchResult` -/
structure MatchResult where
  sop : Option SOP := none
  confidence : Option Rat := none
  rationale : String := ""

/-- What is fixed for a deployment and a tenant: settings, and the code of other
modules. -/
structure Site where
  eng : Engine
  /-- The deployment has an action pipeline. -/
  withActions : eng.hasActions = true
  registry : Registry
  tenant : String
  /-- SHA-256 of a value's canonical text, in hexadecimal. -/
  sha : Json → String
  /-- `audit.canonical` -/
  canonicalText : Json → String
  contentHash : SopContent → String
  text : PolicyText
  /-- `text.strip().lower()` -/
  fold : String → String
  maxTier : RiskTier
  maxAutonomy : Autonomy
  /-- The matcher: the place of the best candidate, its score and why. -/
  matcher : Incident → List SOP → Option Nat × Option Rat × String
  threshold : Rat
  maxAttempts : Nat
  /-- `visibility_timeout_seconds`, as a duration. -/
  lease : Nat
  /-- Whether tickets are claimed, and the agent's user. -/
  claiming : Bool
  agentUser : String
  /-- `resolve_l2_team(ci)["name"]` -/
  l2Team : String → String

/-! ## Remote parties -/

/-- `AdapterResult` of a write. -/
structure WriteAnswer where
  success : Bool
  error : String := ""
  evidenceSnippet : String := ""
  data : Json := .obj []
  deriving DecidableEq

/-- `ChangeRef` -/
structure ChangeRef where
  sysId : String
  number : String
  deriving DecidableEq

/-- `ChangeApproval` -/
structure ChangeApproval where
  state : String
  approver : String := ""
  approverEmail : String := ""
  comment : String := ""
  correlation : String := ""
  deriving DecidableEq

/-- The fields of a ticket that decide whose it is. -/
structure Ticket where
  assignedTo : String := ""
  state : String := "1"
  assignmentGroup : String := ""
  deriving DecidableEq

/-- The fields an update sets. -/
structure TicketFields where
  assignedTo : Option String := none
  state : Option String := none
  assignmentGroup : Option String := none
  deriving DecidableEq

/-- PATCH of a ticket. -/
def Ticket.patch (t : Ticket) (f : TicketFields) : Ticket where
  assignedTo := f.assignedTo.getD t.assignedTo
  state := f.state.getD t.state
  assignmentGroup := f.assignmentGroup.getD t.assignmentGroup

/-! ## The history -/

/-- What a grant is for. -/
inductive Purpose where
  | write | rollback
  deriving DecidableEq

/-- What a read of the pipeline is to show. -/
structure Looking where
  /-- The action it is made for. -/
  action : Nat
  assertion : Json
  parameters : Json
  deriving DecidableEq

/-- What can be done about an action. -/
inductive Deed where
  /-- The write may be made from here on. -/
  | authorised (action : Nat)
  /-- The rollback may be made from here on. -/
  | rollbackAuthorised (action : Nat)
  /-- A connector's write was invoked under the grant with this nonce. -/
  | wrote (purpose : Purpose) (action : Nat) (nonce capabilityId : String) (parameters : Json)
      (performed : Bool) (answer : Except Exn WriteAnswer)
  /-- The target was read to verify the write. -/
  | looked (looking : Looking) (answer : CallAnswer)
  /-- The change record was to be closed with this result. -/
  | closed (action : Nat) (successful : Bool)

/-- A deed with its coroutine. -/
structure Entry where
  thread : Nat
  deed : Deed

/-- A grant with what it was minted for, and by which coroutine. -/
structure Issued where
  grant : Grant
  purpose : Purpose
  action : Nat
  thread : Nat

/-! ## The state -/

/-- What the coroutines act on. -/
structure Estate where
  db : Db := {}
  now : Nat := 0
  /-- The local kill switch's file is there. -/
  switchFile : Bool := false
  tickets : List (String × Ticket) := []
  issued : List Issued := []
  /-- The nonces each process has accepted. -/
  redeemed : List (Nat × String) := []
  deeds : List Entry := []

/-- The ticket with this id. -/
def Estate.ticket (s : Estate) (sysId : String) : Ticket := (s.tickets.lookup sysId).getD {}

/-- A deed of thread `t`. -/
def Estate.did (s : Estate) (t : Nat) (d : Deed) : Estate :=
  { s with deeds := s.deeds ++ [⟨t, d⟩] }

/-! ## Operations -/

/-- The transactions. -/
inductive DbCall where
  -- actions/store.py
  | switchesOn
  | getPolicy
  | find (runId : Nat) (stepId : String)
  | get (id : Nat)
  /-- `recent_executions` and `sop_author`, read together. -/
  | situation (rateMinutes : Nat) (sopKey contentHash : String)
  | recordDecision (d : Decision) (payload : List (String × Json))
  | transition (id : Nat) (fromStatuses : List ActionStatus) (toStatus : ActionStatus)
      (event : String) (payload : List (String × Json)) (values : Values) (wake : Bool)
  | note (id : Nat) (event : String) (payload : List (String × Json)) (values : Values)
  | authoriseExecution (id : Nat) (localSwitch : Bool)
  | decide (id : Nat) (answer : Answer)
  | pending
  | authorEmail (authorId : String)
  -- service/runs.py
  | ingest (actor source : String) (incident : Incident)
  | claimJob (worker : String)
  | renewLease (jobId : Nat) (worker : String)
  | parkJob (job : ClaimedJob) (number reason : String)
  | concludeRun (job : ClaimedJob) (c : Conclusion) (status : JobStatus)
  | finishJob (jobId : Nat) (status : JobStatus)
  | releaseJob (job : ClaimedJob) (error : String)
  | loadRun (runId : Nat)
  | loadJournal (runId : Nat)
  | recordMatch (runId : Nat) (sop : SOP) (confidence : Rat) (rationale : String)
  | recordAdvised (runId : Nat) (values : List (String × String))
  | journalStep (runId : Nat) (o : EngineOp)
  -- sop/store.py
  | createDraft (actor : String) (content : SopContent)
  | updateDraft (actor : String) (id : Nat) (content : SopContent)
  | discardDraft (actor : String) (id : Nat)
  | submitDraft (actor : String) (id : Nat)
  | approveVersion (actor : String) (id : Nat) (reviewedHash : String)
  | requestChanges (actor : String) (id : Nat) (note : String)
  | publishVersion (actor : String) (id : Nat)
  | retireSop (actor sopKey : String)
  | publishedSops
  | versionForResume (sopKey version digest : String)
  -- The settings of the tenant and of the deployment, and its users.
  | setPolicy (policy : TenantPolicy)
  | setGlobalSwitch (on : Bool)
  | setUsers (users : List UserRow)

/-- What a transaction returns. -/
def DbCall.Val : DbCall → Type
  | switchesOn => List String
  | getPolicy => TenantPolicy
  | find .. => Option ActionRow
  | get .. | recordDecision .. | note .. => ActionRow
  | situation .. => Nat × String
  | transition .. => Option ActionRow
  | authoriseExecution .. => Except String ActionRow
  | decide .. => Bool
  | pending => List ActionRow
  | authorEmail _ | submitDraft .. => String
  | ingest .. => Option Nat
  | claimJob _ => Option ClaimedJob
  | loadRun _ => Option String × Incident
  | loadJournal _ => LoadedJournal
  | createDraft .. | publishVersion .. => Nat
  | publishedSops => List SOP
  | versionForResume .. => Option SOP
  | renewLease .. | parkJob .. | concludeRun .. | finishJob .. | releaseJob .. | recordMatch ..
  | recordAdvised .. | journalStep .. | updateDraft .. | discardDraft .. | approveVersion ..
  | requestChanges .. | retireSop .. | setPolicy _ | setGlobalSwitch _ | setUsers _ => Unit

/-- A transaction that writes nothing. -/
def reads {α : Type} (v : α) (db : Db) : Tx α := .ok (v, db)

/-- What a transaction does at the instant `now`; `pick` settles what the statements
leave open. -/
def DbCall.run (site : Site) (now pick : Nat) : (c : DbCall) → Db → Tx c.Val
  | switchesOn, db => reads (dbSwitches db) db
  | getPolicy, db => reads db.policy db
  | find runId stepId, db => reads (findAction runId stepId db) db
  | get id, db => getAction id db
  | situation rateMinutes sopKey contentHash, db =>
    reads (recentExecutions now rateMinutes db, sopAuthor sopKey contentHash pick db) db
  | recordDecision d payload, db => L1Agent.recordDecision d payload db
  | transition id fromStatuses toStatus event payload values wake, db =>
    transitionAction now id fromStatuses toStatus event payload values wake db
  | note id event payload values, db => noteAction id event payload values db
  | authoriseExecution id localSwitch, db => L1Agent.authoriseExecution now id localSwitch db
  | decide id answer, db => decideAction now id answer db
  | pending, db => reads (pendingActions db) db
  | authorEmail authorId, db => reads (site.fold (L1Agent.authorEmail authorId db)) db
  | ingest actor source incident, db =>
    L1Agent.ingest now site.maxAttempts actor source incident (site.sha incident.toDict) db
  | claimJob worker, db => L1Agent.claimJob now site.lease worker db
  | renewLease jobId worker, db => L1Agent.renewLease now site.lease jobId worker db
  | parkJob job number reason, db => L1Agent.parkJob job number reason db
  | concludeRun job c status, db => L1Agent.concludeRun job c status db
  | finishJob jobId status, db => L1Agent.finishJob jobId status db
  | releaseJob job error, db => L1Agent.releaseJob now job error db
  | loadRun runId, db => (L1Agent.loadRun runId db).map fun r => (r, db)
  | loadJournal runId, db => (L1Agent.loadJournal runId db).map fun j => (j, db)
  | recordMatch runId sop confidence rationale, db =>
    L1Agent.recordMatch runId sop confidence rationale db
  | recordAdvised runId values, db => L1Agent.recordAdvised runId values db
  | journalStep runId o, db => L1Agent.journalStep runId o db
  | createDraft actor content, db =>
    L1Agent.createDraft site.contentHash actor pick content db
  | updateDraft actor id content, db =>
    L1Agent.updateDraft site.contentHash actor id content db
  | discardDraft actor id, db => L1Agent.discardDraft actor id db
  | submitDraft actor id, db =>
    L1Agent.submitDraft site.eng.catalog site.contentHash actor id db
  | approveVersion actor id reviewedHash, db => L1Agent.approveVersion actor id reviewedHash db
  | requestChanges actor id text, db => L1Agent.requestChanges actor id text db
  | publishVersion actor id, db => L1Agent.publishVersion site.eng.catalog actor id db
  | retireSop actor sopKey, db => L1Agent.retireSop actor sopKey db
  | publishedSops, db => reads (L1Agent.publishedSops db) db
  | versionForResume sopKey version digest, db =>
    reads (L1Agent.versionForResume sopKey version digest db) db
  | setPolicy policy, db => .ok ((), { db with policy })
  | setGlobalSwitch on, db => .ok ((), { db with globalSwitch := on })
  | setUsers users, db => .ok ((), { db with users })

/-- What a transaction that committed adds to the history. -/
def DbCall.deed : (c : DbCall) → c.Val → Option Deed
  | authoriseExecution id _, .ok _ => some (.authorised id)
  | transition id _ .rollingBack .., some _ => some (.rollbackAuthorised id)
  | _, _ => none

/-- The steps at which a coroutine gives up control. -/
inductive Op where
  | db (c : DbCall)
  | utcnow
  /-- Whether the local switch's file exists. -/
  | localSwitch
  | setSwitchFile (on : Bool)
  /-- `mint`; the purpose is that of the one call site it has for each. -/
  | mint (purpose : Purpose) (row : ActionRow) (capabilityId digest : String)
  /-- `refusals`: why the connector would refuse the call. -/
  | refusals (capabilityId : String) (parameters : Json)
  /-- The checks of `invoke` that come before the grant is redeemed. -/
  | checkCall (capabilityId : String) (parameters : Json)
  | dryRun (capabilityId : String) (parameters : Json)
  /-- The grant is redeemed, and with nothing in between the write is made. -/
  | write (purpose : Purpose) (action : Nat) (grant : Grant) (call : WriteCall)
  /-- `_call_adapter` -/
  | callAdapter (name : String) (parameters : Json) (stepId : String) (attempt : Nat)
      (looking : Option Looking)
  | openChange (row : ActionRow) (incidentSysId : String)
  | requestChangeApproval (ref : ChangeRef) (group : String)
  | noteChange (ref : ChangeRef) (text : String)
  | closeChange (action : Nat) (ref : ChangeRef) (successful : Bool) (notes : String)
  | changeApproval (ref : ChangeRef)
  | connectors
  /-- `advisor.extract` -/
  | extract (askable : List ParameterSpec)
  /-- The model's choice among the candidates, with its rationale. -/
  | rank (candidates : List SOP)
  | ticketGet (sysId : String)
  | ticketPatch (sysId : String) (fields : TicketFields)

/-- What a step returns. -/
def Op.Val : Op → Type
  | db c => c.Val
  | utcnow => Nat
  | localSwitch => Bool
  | mint .. => Grant
  | refusals .. => List String
  | dryRun .. | write .. => WriteAnswer
  | callAdapter .. => CallAnswer
  | openChange .. => ChangeRef
  | requestChangeApproval .. => Nat
  | changeApproval _ => ChangeApproval
  | extract _ => List (String × Json)
  | rank _ => Option (Nat × String)
  | ticketGet _ => Ticket
  | setSwitchFile _ | checkCall .. | noteChange .. | closeChange .. | connectors
  | ticketPatch .. => Unit

/-- What the programs do not determine. -/
structure Choice where
  /-- Time that has passed since the last step. -/
  elapsed : Nat := 0
  /-- The exception the step ends with, where it fails. -/
  fault : Option Exn := none
  /-- A step that fails has taken effect all the same. -/
  landed : Bool := false
  pick : Nat := 0
  nonce : String := ""
  /-- The process whose check the grant goes through. -/
  process : Nat := 0
  refused : List String := []
  /-- The write is performed at the target. -/
  performed : Bool := false
  written : Except Exn WriteAnswer := .ok { success := false }
  answer : CallAnswer := { status := .error }
  change : ChangeRef := ⟨"", ""⟩
  asked : Nat := 0
  approval : ChangeApproval := { state := "requested" }
  located : List (String × Json) := []
  advice : Option (Nat × String) := none

/-- A connector that answers success has performed the write. -/
def Choice.honest (ch : Choice) : Bool :=
  match ch.written with
  | .ok a => !a.success || ch.performed
  | .error _ => true

/-- `GRANT_SECONDS` -/
def grantSeconds : Nat := 60 * 1000000

/-- `mint` -/
def mintGrant (site : Site) (now : Nat) (row : ActionRow) (capabilityId digest nonce : String) :
    Grant where
  decisionId := toString row.id
  tenantId := site.tenant
  runId := toString row.runId
  stepId := row.stepId
  capabilityId := capabilityId
  callDigest := digest
  expiresAt := now + grantSeconds
  nonce := nonce

/-- **What a step does** when it does not fail: its answer, and the state it leaves.
`none` where the choice is not possible. -/
def Op.effect (site : Site) (t : Nat) (ch : Choice) (s : Estate) :
    (o : Op) → Option (Except Exn o.Val × Estate)
  | db c =>
    match c.run site s.now ch.pick s.db with
    | .error e => some (.error e, s)
    | .ok (v, rows) =>
      let after := { s with db := rows }
      some (.ok v, (c.deed v).elim after (after.did t))
  | utcnow => some (.ok s.now, s)
  | localSwitch => some (.ok s.switchFile, s)
  | setSwitchFile on => some (.ok (), { s with switchFile := on })
  | mint purpose row capabilityId digest =>
    -- A nonce is random, and long enough never to be drawn twice.
    if s.issued.any (·.grant.nonce == ch.nonce) then none
    else
      let grant := mintGrant site s.now row capabilityId digest ch.nonce
      some (.ok grant, { s with issued := s.issued ++ [⟨grant, purpose, row.id, t⟩] })
  | refusals .. => some (.ok ch.refused, s)
  | checkCall .. => some (.ok (), s)
  | dryRun .. => some (ch.written, s)
  | write purpose action grant call =>
    match grant.refusal site.sha (s.issued.map (·.grant))
      ((s.redeemed.filter (·.1 == ch.process)).map (·.2)) s.now call with
    | some e => some (.error e, s)
    | none =>
      if ch.honest then
        some (ch.written,
          { s with redeemed := s.redeemed ++ [(ch.process, grant.nonce)] }.did t
            (.wrote purpose action grant.nonce call.capabilityId call.parameters ch.performed
              ch.written))
      else none
  | callAdapter _ _ _ _ looking =>
    some (.ok ch.answer, looking.elim s fun l => s.did t (.looked l ch.answer))
  | openChange .. => some (.ok ch.change, s)
  | requestChangeApproval .. => some (.ok ch.asked, s)
  | noteChange .. => some (.ok (), s)
  | closeChange action _ successful _ => some (.ok (), s.did t (.closed action successful))
  | changeApproval _ => some (.ok ch.approval, s)
  | connectors => some (.ok (), s)
  | extract _ => some (.ok ch.located, s)
  | rank _ => some (.ok ch.advice, s)
  | ticketGet sysId => some (.ok (s.ticket sysId), s)
  | ticketPatch sysId fields =>
    some (.ok (),
      { s with
        tickets := (sysId, (s.ticket sysId).patch fields) ::
          s.tickets.filter (·.1 != sysId) })

/-- Time passes before a step. -/
def Estate.later (s : Estate) (elapsed : Nat) : Estate := { s with now := s.now + elapsed }

/-- The exception that the step ends with, where it fails.  A write does not fail by
itself: its exceptions are among the connector's answers. -/
def Op.failure (ch : Choice) : Op → Option Exn
  | write .. => none
  | _ => ch.fault

/-- A step, which may fail. -/
def Op.step (site : Site) (t : Nat) (o : Op) (ch : Choice) (s : Estate) :
    Option (Except Exn o.Val × Estate) :=
  (o.effect site t ch (s.later ch.elapsed)).map fun r =>
    match o.failure ch with
    | none => r
    | some e => (.error e, if ch.landed then r.2 else s.later ch.elapsed)

/-- The signature of the steps: each returns or raises. -/
abbrev Calls : Signature := ⟨Op, fun o => Except Exn o.Val⟩

/-- A coroutine. -/
abbrev Prog (α : Type) := Program Calls Exn α

/-- One step, whose exception is raised. -/
def ask (o : Op) : Prog o.Val := .call (E := Calls) o fun answer => Program.ofExcept answer

/-- One transaction. -/
abbrev askDb (c : DbCall) : Prog c.Val := ask (.db c)

end L1Agent
