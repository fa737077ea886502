import L1Agent.Actions.Pipeline

/-! # Change records (`connectors/itsm/servicenow.py`)

`open_change` is a read, a lookup or two, and a create, each a request of its own, so other
coroutines may act between them.  The instance keeps what is created under a `sys_id` that it
chooses, and does not ask that a `correlation_id` be unique; nobody else writes that column.
What else it holds only answers.

The requests are operations of their own (`SnowOp`), and the programs that open a change are
translated to them; `Site.changeSystem` is the pipeline down to these requests.
-/
namespace L1Agent
open Interleaving

/-! ## The instance -/

/-- A row of `change_request`. -/
structure ChangeRequest where
  ref : ChangeRef
  correlationId : String
  deriving DecidableEq

/-- The fields that a change is created with. -/
structure ChangeFields where
  shortDescription : String
  description : String
  correlationId : String
  assignmentGroup : Option String := none
  deriving DecidableEq

/-- The requests. -/
inductive SnowOp where
  /-- GET `change_request` with this `correlation_id`, limited to one row. -/
  | findChange (correlation : String)
  /-- GET the active template of this name. -/
  | findTemplate (name : String)
  /-- GET the active group of this name. -/
  | findGroup (name : String)
  /-- POST to the template. -/
  | createChange (templateId : String) (fields : ChangeFields)
  /-- PATCH of the incident's `rfc`. -/
  | linkIncident (incidentSysId changeSysId : String)
  deriving DecidableEq

/-- What a request returns. -/
def SnowOp.Val : SnowOp → Type
  | findChange _ => Option ChangeRef
  | findTemplate _ | findGroup _ => Option String
  | createChange .. => ChangeRef
  | linkIncident .. => Unit

/-- What the requests do not determine. -/
structure Remote where
  /-- The exception that the request ends with, where it fails. -/
  fault : Option Exn := none
  /-- A request that fails has taken effect all the same. -/
  landed : Bool := false
  pick : Nat := 0
  /-- The record that a create makes, and whether the answer says which. -/
  ref : ChangeRef := ⟨"", ""⟩
  silent : Bool := false
  sysId : Option String := none

/-- **What a request does** when it does not fail. -/
def SnowOp.effect (ch : Remote) (s : List ChangeRequest) :
    (o : SnowOp) → o.Val × List ChangeRequest
  | findChange correlation =>
    let found := s.filter (·.correlationId = correlation)
    -- Without an order any of the rows may come first.
    (found[ch.pick % found.length]?.map (·.ref), s)
  | findTemplate _ => (ch.sysId, s)
  | findGroup _ => (ch.sysId, s)
  | createChange _ fields =>
    (if ch.silent then ⟨"", ""⟩ else ch.ref, s ++ [⟨ch.ref, fields.correlationId⟩])
  | linkIncident .. => ((), s)

/-- A request, which may fail. -/
def SnowOp.step (ch : Remote) (s : List ChangeRequest) (o : SnowOp) :
    Except Exn o.Val × List ChangeRequest :=
  match ch.fault with
  | none => (.ok (o.effect ch s).1, (o.effect ch s).2)
  | some e => (.error e, if ch.landed then (o.effect ch s).2 else s)

/-! ## The client -/

/-- The steps of the service, and the requests that open a change. -/
inductive ChangeOp where
  | here (o : Op)
  | snow (o : SnowOp)

/-- What a step returns. -/
def ChangeOp.Ans : ChangeOp → Type
  | here o => Except Exn o.Val
  | snow o => Except Exn o.Val

/-- The signature of both. -/
abbrev ChangeCalls : Signature := ⟨ChangeOp, ChangeOp.Ans⟩

/-- A coroutine whose requests are steps of their own. -/
abbrev ChangeProg (α : Type) := Program ChangeCalls Exn α

/-- One request, whose exception is raised. -/
def askSnow (o : SnowOp) : ChangeProg o.Val :=
  .call (E := ChangeCalls) (.snow o) fun answer => Program.ofExcept answer

namespace ServiceNowClient

/-- `ChangeUnavailable` -/
def changeUnavailable (message : String) : Exn := .other "ChangeUnavailable" message

/-- `_change_group` -/
def changeGroup (name : String) : ChangeProg String :=
  if name.toList.any (· ∈ ['^', '\n', '\r']) then
    throw (changeUnavailable "the change assignment group is not a plain group name")
  else do
    let found : Option String ← askSnow (.findGroup name)
    let groupId := found.getD ""
    if groupId = "" then
      throw (changeUnavailable s!"there is no active group '{name}' to assign the change to")
    else pure groupId

/-- The group that the change is assigned to, if one is set. -/
def assignmentGroup (group : String) : ChangeProg (Option String) :=
  if group = "" then pure none
  else do
    let groupId ← changeGroup group
    pure (some groupId)

/-- The incident shows which change it was worked under. -/
def linkIncident (incidentSysId : String) (change : ChangeRef) : ChangeProg Unit :=
  (askSnow (.linkIncident incidentSysId change.sysId)).tryCatch fun e =>
    if e.kind = "ServiceNowError" then pure () else throw e

/-- The part of `open_change` after the read: the change is created. -/
def createChange (group template correlation shortDescription description incidentSysId : String) :
    ChangeProg ChangeRef := do
  let found : Option String ← askSnow (.findTemplate template)
  let templateId := found.getD ""
  if templateId = "" then
    throw (changeUnavailable s!"there is no active standard change template '{template}'")
  else do
    let groupId ← assignmentGroup group
    let change : ChangeRef ← askSnow (.createChange templateId
      { shortDescription, description, correlationId := correlation, assignmentGroup := groupId })
    if change.sysId = "" ∨ change.number = "" then
      throw (changeUnavailable "ServiceNow did not return the change it was asked to open")
    else do
      linkIncident incidentSysId change
      pure change

/-- `open_change`; `group` is the setting `change_assignment_group`. -/
def openChange (group template correlation shortDescription description incidentSysId : String) :
    ChangeProg ChangeRef := do
  let found : Option ChangeRef ← askSnow (.findChange correlation)
  match found with
  | some change => pure change
  | none => createChange group template correlation shortDescription description incidentSysId

end ServiceNowClient

/-! ## The pipeline over the client -/

namespace ActionService

/-- The description of the change. -/
def changeDescription (site : Site) (row : ActionRow) : String :=
  "\n".intercalate
    [s!"Action: {row.capabilityId}", "Parameters: " ++ site.canonicalText row.parameters,
      s!"Incident: {row.incidentNumber}", s!"SOP: {row.sopKey} v{row.sopVersion} ({row.sopHash})",
      s!"Risk tier: {row.tier.value}", s!"Action hash: {row.actionHash}"]

/-- What `_ensure_change` calls, and every other step as it is. -/
def carriedOut (site : Site) (group : String) : (o : Op) → ChangeProg (Except Exn o.Val)
  | .openChange row incidentSysId =>
    (ServiceNowClient.openChange group row.changeTemplate row.actionHash
      (clipText 160 s!"L1 Agent: {row.capabilityId} for {row.incidentNumber}")
      (changeDescription site row) incidentSysId).attempt
  | o => .call (E := ChangeCalls) (.here o) .ret

end ActionService

/-- What the processes share, and the instance's changes. -/
structure Landscape where
  estate : Estate := {}
  changes : List ChangeRequest := []

/-- One step. -/
def ChangeOp.step (site : Site) (t : Nat) (ch : Choice × Remote) (s : Landscape) :
    (o : ChangeOp) → Option (ChangeCalls.Ans o × Landscape)
  | .here o => (o.step site t ch.1 s.estate).map fun r => (r.1, { s with estate := r.2 })
  | .snow o => some ((o.step ch.2 s.changes).1, { s with changes := (o.step ch.2 s.changes).2 })

/-- **The pipeline, down to the requests that open a change.** -/
def Site.changeSystem (site : Site) (group : String) (admits : ActionCall → Prop) :
    System ChangeCalls Exn Landscape where
  Choice := Choice × Remote
  run t o ch s := o.step site t ch s
  Entry p := ∃ q, Pipeline site admits q ∧ p = q.translate (ActionService.carriedOut site group)

end L1Agent
