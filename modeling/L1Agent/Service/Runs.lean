import L1Agent.Engine.IncidentProcessor

/-! # The worker (`service/runs.py`)

`workOnce` is one turn of a worker: sweep the approvals, claim a job, run it, and put it
back if the infrastructure failed.

What ends a run without its action having ended, as `abandon` does, is the subject of
`Service/Concluded.lean`; that a worker leaves a job that it may have lost, that of
`Service/Leases.lean`.
-/
namespace L1Agent
open Interleaving

/-- `summary.outcome_label` -/
def ExecutionSummary.outcomeLabel (summary : ExecutionSummary) : String :=
  summary.outcome.elim "in_progress" ExecutionOutcome.value

/-- What `_conclude` writes. -/
def conclusionOf (incident : Incident) (summary : ExecutionSummary) : Conclusion where
  number := incident.number
  outcome := summary.outcomeLabel
  sopId := summary.sopId
  verifiedBy := summary.verifiedBy
  reason := summary.escalationReason
  steps := summary.stepResults.map fun r => (r.stepId, r.status.value)

namespace RunService
variable (site : Site)

/-- `_published`: the tenant's published SOPs, and the version that a resumed run
started with. -/
def published (journal : LoadedJournal) : Prog (List SOP) := do
  let sops : List SOP ← askDb .publishedSops
  match journal.match? with
  | none => pure sops
  | some stored =>
    if sops.any fun s => s.sopId == stored.sopId && s.contentHash == stored.sopHash then pure sops
    else do
      let earlier : Option SOP ←
        askDb (.versionForResume stored.sopId stored.sopVersion stored.sopHash)
      pure (sops ++ earlier.toList)

/-- `_abandon`: a run that keeps dying is stopped and given to a person. -/
def abandon (job : ClaimedJob) (incident : Incident) : Prog Unit := do
  IncidentProcessor.escalate site incident
  askDb (.concludeRun job (conclusionOf incident
    { incidentNumber := incident.number, sopId := "", sopTitle := "", outcome := some .needsHuman
      escalationReason := .str
        s!"The run did not finish in {job.maxAttempts} attempts and was stopped"
      checked := checkOutcome_needsHuman }) .dead)

/-- What is written of an attempt that has ended. -/
def settleRun (job : ClaimedJob) (incident : Incident) : Except Exn ExecutionSummary → Prog Unit
  | .ok summary => askDb (.concludeRun job (conclusionOf incident summary) .done)
  | .error (.suspended reason) => askDb (.parkJob job incident.number reason)
  | .error e => throw e

/-- `execute` -/
def execute (job : ClaimedJob) (advisor : Bool) : Prog Unit := do
  let loaded : Option String × Incident ← askDb (.loadRun job.runId)
  if loaded.1.isSome then askDb (.finishJob job.id .done)
  else if job.maxAttempts < job.attempts then abandon site job loaded.2
  else do
    let journal : LoadedJournal ← askDb (.loadJournal job.runId)
    let sops ← published journal
    let ended ←
      (IncidentProcessor.runOnce site loaded.2 job.runId journal sops advisor).attempt
    settleRun job loaded.2 ended

/-- A claimed job is run; an exception puts it back. -/
def runJob (job : ClaimedJob) (advisor : Bool) : Prog Unit := do
  let ended ← (execute site job advisor).attempt
  match ended with
  | .ok _ => pure ()
  | .error e => do
    -- Where this fails too, the lease expires and the job is claimed again.
    let _ ← (askDb (.releaseJob job e.told)).attempt
    pure ()

/-- `work_once`, for the tenant. -/
def workOnce (worker : String) (pollDue advisor : Bool) : Prog Unit := do
  let _ ← (ActionService.sweep site pollDue).attempt
  let job : Option ClaimedJob ← askDb (.claimJob worker)
  match job with
  | none => pure ()
  | some job => runJob site job advisor

end RunService

end L1Agent
