import Mathlib.Data.List.Basic
import L1Agent.Actions.Policy
import L1Agent.Models.Incident
import L1Agent.Models.Sop
import L1Agent.Service.Journal

/-! # The tables of one tenant (`db/models.py`)

Every statement of the program names its tenant, so the rows of one tenant are
modelled by themselves.  The tables are lists of rows in the order in which they
were inserted.  The constraints on `actions` come with the table: an `ActionTable`
that breaks one cannot be built, and a statement that would break one raises
`IntegrityError`.

What each statement does to these tables is in `Actions/Store.lean`, `Service/Queue.lean` and
`Sop/Store.lean`; columns that no modelled function reads are left out.
-/
namespace L1Agent

/-! ## Actions -/

/-- `ACTION_STATUSES` -/
inductive ActionStatus where
  | denied | shadowed | recommended
  /-- waiting for an approval -/
  | pending
  | approved | rejected | expired
  /-- the approval or the decision no longer applies -/
  | invalid
  | allowed
  /-- the write has been authorised and may have been sent -/
  | executing
  /-- the write was accepted; not yet verified -/
  | executed
  /-- a pre-check or dry run said no; nothing was changed -/
  | notDone
  | verified
  /-- the write or its verification failed, and nothing was rolled back -/
  | failed
  | rollingBack | rolledBack | rollbackFailed
  /-- stopped by the kill switch -/
  | aborted
  deriving DecidableEq, Repr

namespace ActionStatus

/-- The text in the column. -/
def value : ActionStatus → String
  | denied => "denied"
  | shadowed => "shadowed"
  | recommended => "recommended"
  | pending => "pending"
  | approved => "approved"
  | rejected => "rejected"
  | expired => "expired"
  | invalid => "invalid"
  | allowed => "allowed"
  | executing => "executing"
  | executed => "executed"
  | notDone => "not_done"
  | verified => "verified"
  | failed => "failed"
  | rollingBack => "rolling_back"
  | rolledBack => "rolled_back"
  | rollbackFailed => "rollback_failed"
  | aborted => "aborted"

/-- `FINAL`: the step is finished and its result is stored on the row. -/
def isFinal : ActionStatus → Bool
  | denied | shadowed | recommended | rejected | expired | invalid | notDone
  | verified | failed | rolledBack | rollbackFailed | aborted => true
  | pending | approved | allowed | executing | executed | rollingBack => false

end ActionStatus

/-- The `result` column. -/
structure StoredResult where
  message : Option String := none
  evidence : String := ""
  unknown : Bool := false
  deriving DecidableEq

/-- A row of `actions`: the policy decision for one ACTION step of a run, the
approval if one was needed, and what happened. -/
structure ActionRow where
  id : Nat
  runId : Nat
  incidentId : Nat
  incidentNumber : String
  stepId : String
  sopKey : String
  sopVersion : String
  sopHash : String
  sopAuthorId : String
  capabilityId : String
  parameters : Json
  /-- capability and parameters -/
  callDigest : String
  /-- tenant, incident, SOP version, capability and parameters -/
  actionHash : String
  tier : RiskTier
  verdict : Verdict
  reasonCode : String
  rule : String
  status : ActionStatus
  changeTemplate : String
  changeSysId : String := ""
  changeNumber : String := ""
  /-- where an approval may come from -/
  channels : List String := []
  requestedAt : Option Nat := none
  expiresAt : Option Nat := none
  approverId : Option String := none
  approverEmail : String := ""
  approvedHash : String := ""
  decidedVia : String := ""
  decisionNote : String := ""
  decidedAt : Option Nat := none
  /-- execution must begin before this -/
  validUntil : Option Nat := none
  executionStartedAt : Option Nat := none
  completedAt : Option Nat := none
  result : Option StoredResult := none
  deriving DecidableEq

/-- An approval is of exactly this action, by a named person. -/
def ActionRow.Approved (r : ActionRow) : Prop :=
  r.approverId.isSome = true ∧ r.approvedHash = r.actionHash

/-- The CHECK constraints on a row. -/
structure ActionRow.Checks (r : ActionRow) : Prop where
  tier : r.tier = .t1 ∨ r.tier = .t2
  onlyT1Unattended : r.verdict = .allow → r.tier = .t1
  approvalIsForThisAction : r.status = .approved → r.Approved
  t2TwoPeople : r.tier = .t2 → r.approverId ≠ some r.sopAuthorId
  executedWasAuthorised : r.executionStartedAt.isSome = true →
    r.verdict = .allow ∨ (r.verdict = .requireApproval ∧ r.Approved)

instance (r : ActionRow) : Decidable r.Approved := inferInstanceAs (Decidable (_ ∧ _))

instance (r : ActionRow) : Decidable r.Checks :=
  decidable_of_iff ((r.tier = .t1 ∨ r.tier = .t2) ∧ (r.verdict = .allow → r.tier = .t1) ∧
      (r.status = .approved → r.Approved) ∧ (r.tier = .t2 → r.approverId ≠ some r.sopAuthorId) ∧
      (r.executionStartedAt.isSome = true →
        r.verdict = .allow ∨ (r.verdict = .requireApproval ∧ r.Approved)))
    ⟨fun ⟨h1, h2, h3, h4, h5⟩ => ⟨h1, h2, h3, h4, h5⟩,
      fun ⟨h1, h2, h3, h4, h5⟩ => ⟨h1, h2, h3, h4, h5⟩⟩

/-- Two rows for one step of a run: `uq_actions_step` forbids it. -/
def ActionRow.SameStep (a b : ActionRow) : Prop := a.runId = b.runId ∧ a.stepId = b.stepId

/-- Two rows under which one write was started for one incident:
`uq_actions_once_per_incident` forbids it. -/
def ActionRow.SameWrite (a b : ActionRow) : Prop :=
  a.executionStartedAt.isSome = true ∧ b.executionStartedAt.isSome = true ∧
    a.incidentId = b.incidentId ∧ a.callDigest = b.callDigest

instance (a b : ActionRow) : Decidable (a.SameStep b) := inferInstanceAs (Decidable (_ ∧ _))
instance (a b : ActionRow) : Decidable (a.SameWrite b) := inferInstanceAs (Decidable (_ ∧ _))

/-- The constraints on the table. -/
structure ActionConstraints (rows : List ActionRow) : Prop where
  /-- The primary key, which numbers the rows. -/
  numbered : rows.map (·.id) = List.range rows.length
  checks : ∀ r ∈ rows, r.Checks
  onePerStep : rows.Pairwise fun a b => ¬ a.SameStep b
  oncePerIncident : rows.Pairwise fun a b => ¬ a.SameWrite b

instance (rows : List ActionRow) : Decidable (ActionConstraints rows) :=
  decidable_of_iff (rows.map (·.id) = List.range rows.length ∧ (∀ r ∈ rows, r.Checks) ∧
      rows.Pairwise (fun a b => ¬ a.SameStep b) ∧ rows.Pairwise (fun a b => ¬ a.SameWrite b))
    ⟨fun ⟨h1, h2, h3, h4⟩ => ⟨h1, h2, h3, h4⟩, fun ⟨h1, h2, h3, h4⟩ => ⟨h1, h2, h3, h4⟩⟩

/-- The table `actions`. -/
structure ActionTable where
  rows : List ActionRow
  ok : ActionConstraints rows

/-- The empty table. -/
def ActionTable.empty : ActionTable := ⟨[], rfl, by simp, .nil, .nil⟩

/-- `IntegrityError` -/
def integrityError : Exn := .other "IntegrityError" "a constraint is violated"

/-- The table with these rows, if they keep its constraints. -/
def ActionTable.ofRows (rows : List ActionRow) : Except Exn ActionTable :=
  if h : ActionConstraints rows then .ok ⟨rows, h⟩ else .error integrityError

/-- The row with this id. -/
def ActionTable.get? (t : ActionTable) (id : Nat) : Option ActionRow :=
  t.rows.find? fun r => r.id == id

/-! ## Runs and jobs -/

/-- A row of `incidents`. -/
structure IncidentRow where
  id : Nat
  source : String
  externalId : String
  payload : Incident
  deriving DecidableEq

/-- A row of `runs`, with its rows of `run_steps`. -/
structure RunRow where
  id : Nat
  incidentId : Nat
  number : String
  state : String
  outcome : Option String := none
  sopId : String := ""
  sopVersion : String := ""
  sopHash : String := ""
  confidence : Rat := 0
  matchRationale : String := ""
  advisedParameters : List (String × String) := []
  steps : List StepRow := []
  deriving DecidableEq

/-- `jobs.status` -/
inductive JobStatus where
  | queued | running
  /-- parked until a person decides -/
  | waiting
  | done | dead
  deriving DecidableEq, Repr

/-- A row of `jobs`. -/
structure JobRow where
  id : Nat
  runId : Nat
  status : JobStatus := .queued
  attempts : Nat := 0
  maxAttempts : Nat := 3
  availableAt : Nat
  lockedUntil : Option Nat := none
  lockedBy : String := ""
  lastError : String := ""
  deriving DecidableEq

/-! ## SOP versions and users -/

/-- `sop_versions.status` -/
inductive SopStatus where
  | draft | inReview | approved | published | superseded | retired
  deriving DecidableEq, Repr

/-- From approval onwards the content cannot change (`SOP_FROZEN`). -/
def SopStatus.isFrozen : SopStatus → Bool
  | approved | published | superseded | retired => true
  | draft | inReview => false

/-- The content of a version: what a run reads of it, and the rest. -/
structure SopContent where
  sop : SOP
  rest : Json := .obj []
  deriving DecidableEq

/-- A row of `sop_versions`, with the key of its SOP. -/
structure SopVersion where
  id : Nat
  sopKey : String
  /-- assigned at publication -/
  version : Option Nat := none
  status : SopStatus := .draft
  content : SopContent
  contentHash : String := ""
  origin : String := "authored"
  authorId : String
  approverId : Option String := none
  reviewNote : String := ""
  deriving DecidableEq

/-- The constraints on `sop_versions`. -/
structure SopConstraints (rows : List SopVersion) : Prop where
  numbered : (rows.map (·.id)).Nodup
  twoPeople : ∀ v ∈ rows, v.approverId ≠ some v.authorId
  approvedBySomeone : ∀ v ∈ rows, v.status.isFrozen = true →
    v.approverId.isSome = true ∧ v.contentHash ≠ ""
  oneNumber : rows.Pairwise fun a b => ¬ (a.sopKey = b.sopKey ∧ a.version.isSome = true ∧
    a.version = b.version)
  onePublished : rows.Pairwise fun a b => ¬ (a.sopKey = b.sopKey ∧ a.status = .published ∧
    b.status = .published)

instance (rows : List SopVersion) : Decidable (SopConstraints rows) :=
  decidable_of_iff ((rows.map (·.id)).Nodup ∧ (∀ v ∈ rows, v.approverId ≠ some v.authorId) ∧
      (∀ v ∈ rows, v.status.isFrozen = true → v.approverId.isSome = true ∧ v.contentHash ≠ "") ∧
      rows.Pairwise (fun a b => ¬ (a.sopKey = b.sopKey ∧ a.version.isSome = true ∧
        a.version = b.version)) ∧
      rows.Pairwise (fun a b => ¬ (a.sopKey = b.sopKey ∧ a.status = .published ∧
        b.status = .published)))
    ⟨fun ⟨h1, h2, h3, h4, h5⟩ => ⟨h1, h2, h3, h4, h5⟩,
      fun ⟨h1, h2, h3, h4, h5⟩ => ⟨h1, h2, h3, h4, h5⟩⟩

/-- The table `sop_versions`. -/
structure SopTable where
  rows : List SopVersion
  ok : SopConstraints rows

/-- The empty table. -/
def SopTable.empty : SopTable := ⟨[], .nil, by simp, by simp, .nil, .nil⟩

/-- The table with these rows, if they keep its constraints. -/
def SopTable.ofRows (rows : List SopVersion) : Except Exn SopTable :=
  if h : SopConstraints rows then .ok ⟨rows, h⟩ else .error integrityError

/-- A row of `users`. -/
structure UserRow where
  issuer : String
  subject : String
  email : String
  deriving DecidableEq

/-! ## The tenant -/

/-- `TenantPolicy`: the row of `policies`, or its defaults. -/
structure TenantPolicy where
  autonomy : Autonomy := .shadow
  rules : Rules := {}
  killSwitch : Bool := false
  deriving DecidableEq

/-- An event of the audit log, before it is chained. -/
structure AuditEvent where
  actor : String
  event : String
  payload : Json
  correlationId : String := ""
  deriving DecidableEq

/-- The rows of one tenant, and the deployment's own switch. -/
structure Db where
  actions : ActionTable := .empty
  incidents : List IncidentRow := []
  runs : List RunRow := []
  jobs : List JobRow := []
  sopVersions : SopTable := .empty
  users : List UserRow := []
  policy : TenantPolicy := {}
  /-- `platform_flags`, the kill switch -/
  globalSwitch : Bool := false
  audit : List AuditEvent := []

end L1Agent
