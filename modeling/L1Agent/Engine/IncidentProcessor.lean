import L1Agent.Actions.Service
import L1Agent.Engine.SopMatcher

/-! # The incident processor (`engine/incident_processor.py`)

`runOnce` takes one incident to a terminal outcome: claim the ticket, choose the SOP or
take up the one that an earlier attempt chose, execute it, and tell the ITSM.  The engine's
own calls go to the journal in the database, to the connectors and to the action pipeline
(`EngineOp.carriedOut`).

Work notes, e-mails, progress events, the resolution memory and the model's note for the
next engineer are left out: each is best effort, and nothing is read back from it.

The processor is a program over the operations of `Service/Operations.lean`, so that what it does
between two of them may be interleaved with anything; `Service/Runs.lean` starts it for a job.
-/
namespace L1Agent
open Interleaving

/-- `STATE_IN_PROGRESS` -/
def stateInProgress : String := "2"
/-- `RESOLVED_STATE` -/
def resolvedState : String := "6"
/-- `CLAIMABLE_STATES` -/
def claimableStates : List String := ["1", stateInProgress]

/-- `ClaimResult` -/
structure ClaimResult where
  claimed : Bool
  reason : String := ""
  deriving DecidableEq

/-- The engine's calls, for an attempt at run `runId`. -/
def EngineOp.carriedOut (site : Site) (incident : Incident) (sop : SOP) (runId : Nat) :
    (o : EngineOp) → Prog (Except Exn o.Val)
  | .connectors => (ask .connectors).attempt
  | .stepStarted step => (askDb (.journalStep runId (.stepStarted step))).attempt
  | .stepCompleted step result =>
    (askDb (.journalStep runId (.stepCompleted step result))).attempt
  | .callAdapter name parameters stepId attempt =>
    (ask (.callAdapter name parameters stepId attempt none)).attempt
  | .perform step =>
    (ActionService.perform site { step, incident, sop, runId := some runId }).attempt
  | .extract askable => (ask (.extract askable)).attempt
  | .recordAdvised values => (askDb (.recordAdvised runId values)).attempt

namespace IncidentProcessor
variable (site : Site)

/-! ## The ticket -/

/-- `claim` of the ITSM connector. -/
def claimTicket (incident : Incident) : Prog ClaimResult :=
  if site.claiming = false then pure ⟨true, "claiming is switched off"⟩
  else do
    let current : Ticket ← ask (.ticketGet incident.sysId)
    if current.assignedTo = site.agentUser then
      pure ⟨true, "already assigned to the agent"⟩
    else if current.assignedTo ≠ "" then
      pure ⟨false, "the ticket is assigned to someone else"⟩
    else if current.state ∉ claimableStates then
      pure ⟨false, "the ticket is no longer open (state " ++
        (if current.state = "" then "unknown" else current.state) ++ ")"⟩
    else do
      ask (.ticketPatch incident.sysId
        { assignedTo := some site.agentUser, state := some stateInProgress })
      let after : Ticket ← ask (.ticketGet incident.sysId)
      if after.assignedTo ≠ site.agentUser then
        pure ⟨false, "someone else took the ticket at the same moment"⟩
      else pure ⟨true, ""⟩

/-- `_claim`: a summary when the ticket is not ours. -/
def claim (incident : Incident) : Prog (Option ExecutionSummary) := do
  let result ← (claimTicket site incident).attempt
  match result with
  | .error e =>
    throw (.other "ItsmUnavailable" s!"could not claim {incident.number}: {e.told}")
  | .ok result =>
    if result.claimed then pure none
    else pure (some
      { incidentNumber := incident.number, sopId := "", sopTitle := "", outcome := some .aborted
        escalationReason := .str s!"Not claimed: {result.reason}" })

/-- The fields that hand a ticket to the second line.  A claimed ticket is given up. -/
def handOver (incident : Incident) : TicketFields where
  assignmentGroup := some (site.l2Team incident.cmdbCi)
  assignedTo := if site.claiming then some "" else none

/-- `escalate_to_l2` -/
def escalate (incident : Incident) : Prog Unit := do
  let _ ← (ask (.ticketPatch incident.sysId (handOver site incident))).attempt
  pure ()

/-- `_resolve_in_itsm`: why the ITSM refused, if it did. -/
def resolveInItsm (incident : Incident) : Prog (Option String) := do
  let told ← (ask (.ticketPatch incident.sysId { state := some resolvedState })).attempt
  pure (match told with
    | .ok _ => none
    | .error e =>
      let text := clipText 300 (squeeze e.message)
      some (if text = "" then e.kind else text))

/-! ## Matching -/

/-- `_executable_sops` -/
def executableSops (sops : List SOP) : List SOP :=
  sops.filter fun sop => validateSop site.eng.catalog sop = []

/-- The best match by the rules alone. -/
def ruleMatch (incident : Incident) (candidates : List SOP) : MatchResult :=
  let found := site.matcher incident candidates
  { sop := found.1.bind fun i => candidates[i]?, confidence := found.2.1, rationale := found.2.2 }

/-- The model's pick, if it may be taken. -/
def advisedMatch (incident : Incident) (candidates : List SOP) (i : Nat) (rationale : String) :
    MatchResult :=
  let byRules := ruleMatch site incident candidates
  match candidates[i]? with
  | none => byRules
  | some picked =>
    -- A model cannot steer a run into a procedure that changes something.
    if (site.matcher incident candidates).1 ≠ some i ∧ picked.acts = true then byRules
    else
      let own := ruleMatch site incident [picked]
      match own.sop, own.confidence with
      | some _, some confidence =>
        if confidence < site.threshold then byRules
        else
          { sop := some picked, confidence := some confidence
            rationale := s!"{own.rationale} | Model-drafted rationale: {clipText 300 rationale}" }
      | _, _ => byRules

/-- `_match_sop` -/
def matchSop (incident : Incident) (sops : List SOP) (advisor : Bool) : Prog MatchResult :=
  let candidates := executableSops site sops
  if candidates = [] ∨ advisor = false then pure (ruleMatch site incident candidates)
  else do
    let advice ← (ask (.rank candidates)).attempt
    pure (match advice with
      | .ok (some (i, rationale)) => advisedMatch site incident candidates i rationale
      | _ => ruleMatch site incident candidates)

/-- `_stored_match`: the SOP an earlier attempt chose, if that exact version can still run. -/
def storedMatch (sops : List SOP) (stored : StoredMatch) : Option MatchResult :=
  ((executableSops site sops).find? fun sop =>
    sop.sopId == stored.sopId && sop.version == stored.sopVersion &&
      (stored.sopHash == "" || sop.contentHash == stored.sopHash)).map fun sop =>
    { sop := some sop, confidence := some stored.confidence, rationale := stored.rationale }

/-! ## Conclusions -/

/-- `_conclude_unmatched` -/
def concludeUnmatched (incident : Incident) (sop : Option SOP) (reason : String) :
    Prog ExecutionSummary := do
  escalate site incident
  pure
    { incidentNumber := incident.number, sopId := sop.elim "" (·.sopId)
      sopTitle := sop.elim "" (·.title), outcome := some .escalated
      escalationReason := .str reason }

/-- A resolution that the ticket does not show is not a resolution. -/
def unresolved (summary : ExecutionSummary) (error : String) : ExecutionSummary :=
  { summary with
    outcome := some .needsHuman, verifiedBy := "", checked := rfl
    escalationReason := .str ("Verification passed (step " ++ summary.verifiedBy ++
      ") but the ITSM rejected the Resolved update: " ++ error) }

/-- `_post_conclusion` -/
def postConclusion (incident : Incident) (summary : ExecutionSummary) :
    Prog ExecutionSummary :=
  if summary.outcome = some .resolved then do
    let error ← resolveInItsm incident
    match error with
    | none => pure summary
    | some error => do
      escalate site incident
      pure (unresolved summary error)
  else do
    escalate site incident
    pure summary

/-! ## The run -/

/-- The SOP is executed and its outcome told to the ITSM. -/
def executeMatched (incident : Incident) (sop : SOP) (runId : Nat) (journal : LoadedJournal)
    (advisor : Bool) : Prog ExecutionSummary := do
  let summary ← (Executor.executeSop site.eng incident sop
    (some { completed := journal.completed, advised := journal.advised }) advisor).translate
      (EngineOp.carriedOut site incident sop runId)
  postConclusion site incident summary

/-- What follows on the match; `resumed` says that an earlier attempt recorded it. -/
def afterMatch (incident : Incident) (runId : Nat) (journal : LoadedJournal) (advisor resumed : Bool)
    (found : MatchResult) : Prog ExecutionSummary :=
  match found.sop with
  | none => concludeUnmatched site incident none "No applicable SOP found"
  | some sop =>
    match found.confidence with
    | none => concludeUnmatched site incident (some sop) "Low confidence SOP match: N/A"
    | some confidence =>
      if confidence < site.threshold then
        concludeUnmatched site incident (some sop)
          s!"Low confidence SOP match: {twoDecimals confidence}"
      else if resumed then executeMatched site incident sop runId journal advisor
      else do
        askDb (.recordMatch runId sop confidence found.rationale)
        let _ ← (ask (.ticketPatch incident.sysId { state := some stateInProgress })).attempt
        executeMatched site incident sop runId journal advisor

/-- `_run` -/
def run (incident : Incident) (runId : Nat) (journal : LoadedJournal) (sops : List SOP)
    (advisor : Bool) : Prog ExecutionSummary := do
  let lost ← claim site incident
  match lost with
  | some summary => pure summary
  | none =>
    match journal.match? with
    | some stored =>
      match storedMatch site sops stored with
      | none => do
        escalate site incident
        pure
          { incidentNumber := incident.number, sopId := stored.sopId, sopTitle := ""
            outcome := some .needsHuman
            escalationReason := .str ("The run was interrupted and SOP " ++ stored.sopId ++ " v" ++
              stored.sopVersion ++ " is no longer available to resume it") }
      | some found => afterMatch site incident runId journal advisor true found
    | none => do
      let found ← matchSop site incident sops advisor
      afterMatch site incident runId journal advisor false found

/-- An exception that leaves the processor: nothing was done, or the run is parked. -/
def passes (e : Exn) : Bool := e.kind == "ItsmUnavailable" || e.isSuspended

/-- `run_once` -/
def runOnce (incident : Incident) (runId : Nat) (journal : LoadedJournal) (sops : List SOP)
    (advisor : Bool) : Prog ExecutionSummary :=
  (run site incident runId journal sops advisor).tryCatch fun e =>
    if passes e then throw e
    else do
      escalate site incident
      pure
        { incidentNumber := incident.number, sopId := "", sopTitle := ""
          outcome := some .needsHuman
          escalationReason := .str s!"Internal error: {e.kind}" }

end IncidentProcessor
end L1Agent
