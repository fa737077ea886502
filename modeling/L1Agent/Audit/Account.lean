import Mathlib.Data.List.Find
import Mathlib.Logic.Function.Basic
import L1Agent.Library.JsonOrder
import L1Agent.Library.Sourcing
import L1Agent.Service.Intake

/-! # What the audit log says of the state

An auditor who has only the log reads it from the start: each event of a change names an
action, a version of an SOP or a run, and its new status.  `AuditEvent.change?` is that
reading, `Account` is what it adds up to, and `Db.account` is what the tables hold.

The reading goes by the events' types and payloads alone; an event that is of no change, or whose
payload is not as the code writes it, changes nothing of the account.
-/
namespace L1Agent
open Sourcing
open Db (toString_inj)

/-! ## Changes -/

/-- A change of status. -/
inductive Change where
  | action (id : String) (status : ActionStatus)
  | drafted (id sopKey : String)
  | discarded (id : String)
  | moved (id : String) (status : SopStatus)
  /-- The version published before gives way. -/
  | published (id sopKey : String) (number : Nat)
  | retired (sopKey : String)
  | concluded (runId outcome : String)

/-- What is told of a version of an SOP. -/
structure Standing where
  sopKey : String
  status : SopStatus
  number : Option Nat
  deriving DecidableEq

/-- What is told of a row. -/
def SopVersion.standing (v : SopVersion) : Standing := ⟨v.sopKey, v.status, v.version⟩

/-- The published version of an SOP comes to another status. -/
def Standing.leave (sopKey : String) (status : SopStatus) (v : Standing) : Standing :=
  if v.sopKey = sopKey ∧ v.status = .published then { v with status } else v

/-- The status of every action, the status and number of every version and the outcome of
every run, under the texts of their ids. -/
@[ext] structure Account where
  actions : String → Option ActionStatus
  versions : String → Option Standing
  outcomes : String → Option String

/-- Nothing has been told. -/
def Account.empty : Account := ⟨fun _ => none, fun _ => none, fun _ => none⟩

/-- What a change does. -/
def Account.apply (a : Account) : Change → Account
  | .action id status => { a with actions := Function.update a.actions id (some status) }
  | .drafted id sopKey =>
    { a with versions := Function.update a.versions id (some ⟨sopKey, .draft, none⟩) }
  | .discarded id => { a with versions := Function.update a.versions id none }
  | .moved id status =>
    { a with
      versions := Function.update a.versions id
        ((a.versions id).map fun v => { v with status }) }
  | .published id sopKey number =>
    { a with
      versions := Function.update (fun x => (a.versions x).map (·.leave sopKey .superseded)) id
        ((a.versions id).map fun v => { v with status := .published, number := some number }) }
  | .retired sopKey =>
    { a with versions := fun x => (a.versions x).map (·.leave sopKey .retired) }
  | .concluded runId outcome =>
    { a with outcomes := Function.update a.outcomes runId (some outcome) }

/-! ## The reading of an event -/

/-- All the statuses. -/
def ActionStatus.all : List ActionStatus :=
  [denied, shadowed, recommended, pending, approved, rejected, expired, invalid, allowed,
    executing, executed, notDone, verified, failed, rollingBack, rolledBack, rollbackFailed,
    aborted]

/-- The status with this text. -/
def ActionStatus.ofText (text : String) : Option ActionStatus := all.find? (·.value == text)

/-- The verdict with this text. -/
def Verdict.ofText (text : String) : Option Verdict :=
  [deny, shadow, recommend, requireApproval, allow].find? (·.value == text)

namespace AuditEvent

/-- A text of the payload. -/
def text (e : AuditEvent) (key : String) : Option String :=
  match e.payload.get? key with
  | some (.str s) => some s
  | _ => none

/-- A whole number of the payload. -/
def number (e : AuditEvent) (key : String) : Option Nat :=
  match e.payload.get? key with
  | some (.int n) => some n.toNat
  | _ => none

/-- The status that an event about an action gives it: a transition names it, a decision of
the policy and of a person says it in other words, and so does the start of the write. -/
def actionStatus (e : AuditEvent) : Option ActionStatus :=
  match e.text "status" with
  | some status => ActionStatus.ofText status
  | none =>
    if e.event = "policy.decided" then
      ((e.text "verdict").bind Verdict.ofText).map verdictStatus
    else if e.event = "approval.decided" ∨ e.event = "approval.expired" then
      (e.text "decision").bind ActionStatus.ofText
    else if e.event = "action.executing" then some .executing
    else none

/-- The change of an action. -/
def actionChange? (e : AuditEvent) : Option Change :=
  match e.text "action_id", e.actionStatus with
  | some id, some status => some (.action id status)
  | _, _ => none

/-- The events of a version that change its status. -/
def sopEvents : List String :=
  ["sop.draft_created", "sop.draft_discarded", "sop.submitted", "sop.approved",
    "sop.changes_requested", "sop.published", "sop.retired"]

/-- The change of the version with this id. -/
def versionChange? (e : AuditEvent) (id sopKey : String) : Option Change :=
  if e.event = "sop.draft_created" then some (.drafted id sopKey)
  else if e.event = "sop.draft_discarded" then some (.discarded id)
  else if e.event = "sop.submitted" then some (.moved id .inReview)
  else if e.event = "sop.approved" then some (.moved id .approved)
  else if e.event = "sop.changes_requested" then some (.moved id .draft)
  else (e.number "version").map (.published id sopKey)

/-- The change of an SOP. -/
def sopChange? (e : AuditEvent) : Option Change :=
  match e.text "sop_id" with
  | none => none
  | some sopKey =>
    if e.event = "sop.retired" then some (.retired sopKey)
    else (e.text "version_id").bind fun id => e.versionChange? id sopKey

/-- **The change that an event is of.** -/
def change? (e : AuditEvent) : Option Change :=
  if e.event ∈ sopEvents then e.sopChange?
  else if e.event = concludedEvent then (e.text "outcome").map (.concluded e.correlationId)
  else e.actionChange?

end AuditEvent

/-- How the audit log is read. -/
def auditReading : Reading AuditEvent Change Account := ⟨AuditEvent.change?, Account.apply⟩

/-! ## What the tables hold -/

/-- The statuses of the actions. -/
def ActionTable.told (t : ActionTable) (text : String) : Option ActionStatus :=
  (t.rows.find? fun r => toString r.id == text).map (·.status)

/-- The versions. -/
def versionsTold (rows : List SopVersion) (text : String) : Option Standing :=
  (rows.find? fun v => toString v.id == text).map (·.standing)

/-- The outcomes of the runs. -/
def outcomesTold (runs : List RunRow) (text : String) : Option String :=
  (runs.find? fun run => toString run.id == text).bind (·.outcome)

/-- **The current status of everything.** -/
def Db.account (db : Db) : Account where
  actions := db.actions.told
  versions := versionsTold db.sopVersions.rows
  outcomes := outcomesTold db.runs

/-- What is done between two states of the tables is told. -/
def Db.Tells (db db' : Db) : Prop :=
  auditReading.Tells db.audit db.account db'.audit db'.account

namespace ActionTable
variable {t t' : ActionTable} {row old : ActionRow}

end ActionTable

/-! ## The versions after a write -/

section
variable {rows : List SopVersion}

end

end L1Agent
