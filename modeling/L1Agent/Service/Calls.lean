import L1Agent.Service.Runs
import L1Agent.Actions.Lifecycle

/-! # What the coroutines call

`Op.ofAttempt`, `Op.ofSweep` and `Op.ofWorker` list the operations that an attempt at an
ACTION step, the sweeper and a worker call, whatever they are answered.  A property that
passes from the parts of a program to the whole holds of each of them as soon as it holds
of these operations.

An attempt is taken apart in `of_perform` and a worker's turn in `of_workOnce`, so that a statement
about what a deployment calls is a case for each operation.
-/
namespace L1Agent
open Interleaving

/-- The event of a conclusion. -/
def concludedEvent : String := "run.concluded"

/-- The events of a transition. -/
def actionEvents : List String :=
  ["policy.decided", "approval.expired", "approval.not_accepted", "action.aborted",
    "action.invalidated", "action.not_done", "action.executed", "action.verified",
    "action.failed", "action.rolling_back", "action.rolled_back", "action.rollback_failed"]

/-- The events about an action that keeps its status. -/
def noteEvents : List String :=
  ["change.opened", "approval.requested", "change.closed", "change.close_failed"]

/-- The payload names neither the action nor a status itself. -/
def Plain (payload : List (String × Json)) : Prop :=
  ∀ p ∈ payload, p.1 ≠ "action_id" ∧ p.1 ≠ "status"

/-- What a decision puts on record is the verdict that its status comes from. -/
structure Decision.Stated (d : Decision) (payload : List (String × Json)) : Prop where
  status : d.status = verdictStatus d.verdict
  plain : Plain payload
  verdict : payload.reverse.lookup "verdict" = some (.str d.verdict.value)

theorem plain_nil : Plain [] := by simp [Plain]

theorem ne_concluded_of_action {event : String} (h : event ∈ actionEvents) :
    event ≠ concludedEvent := by
  rintro rfl
  exact absurd h (by decide)

theorem ne_concluded_of_note {event : String} (h : event ∈ noteEvents) :
    event ≠ concludedEvent := by
  rintro rfl
  exact absurd h (by decide)

/-- What is set besides the status: a rule that is cut to its column, and the one reason that
`_finish` gives. -/
def Values.Told (v : Values) : Prop :=
  (∀ rule, v.rule = some rule → rule.length ≤ 300) ∧
    ∀ code, v.reasonCode = some code → code = ActionService.changeUnavailable

theorem told_of_none {v : Values} (hrule : v.rule = none) (hcode : v.reasonCode = none) :
    v.Told := by
  refine ⟨fun rule h => ?_, fun code h => ?_⟩
  · rw [hrule] at h
    cases h
  · rw [hcode] at h
    cases h

/-- The operations of an attempt at an ACTION step. -/
def Op.ofAttempt : Op → Prop
  | .db c => match c with
    | .switchesOn | .getPolicy | .find .. | .get _ | .situation .. | .authoriseExecution .. => True
    | .recordDecision d payload => d.Stated payload
    | .transition _ fromStatuses toStatus event payload values _ =>
      (∀ st ∈ fromStatuses, toStatus ∈ st.next) ∧
        toStatus ∉ [.pending, .approved, .allowed, .executing] ∧
          (event ∈ actionEvents ∧ Plain payload) ∧ values.Told
    | .note _ event payload values =>
      (event ∈ noteEvents ∧ Plain payload) ∧ values.result = none ∧ values.Told
    | _ => False
  | .utcnow | .localSwitch | .mint .. | .refusals .. | .checkCall .. | .dryRun .. | .write ..
  | .callAdapter .. | .openChange .. | .requestChangeApproval .. | .noteChange .. | .closeChange .. =>
    True
  | _ => False

/-- The same, but for the record of a decision. -/
def Op.ofStages : Op → Prop
  | .db (.recordDecision ..) => False
  | o => o.ofAttempt

theorem Op.ofStages.attempt {o : Op} (h : o.ofStages) : o.ofAttempt := by
  unfold ofStages at h
  split at h
  · exact h.elim
  · exact h

/-- The columns of the change record are left as they are. -/
def Values.Unopened (v : Values) : Prop := v.changeSysId = none ∧ v.changeNumber = none

/-- The operation opens no change record, and records none. -/
def Op.Unopening : Op → Prop
  | .db c => match c with
    | .transition _ _ _ _ _ values _ | .note _ _ _ values => values.Unopened
    | _ => True
  | .openChange .. => False
  | _ => True

/-- The operations of the sweeper. -/
def Op.ofSweep : Op → Prop
  | .db c => match c with
    | .pending | .authorEmail _ => True
    | .transition _ fromStatuses toStatus event payload _ wake =>
      fromStatuses = [.pending] ∧ (toStatus = .expired ∨ toStatus = .invalid) ∧
        (event ∈ actionEvents ∧ Plain payload) ∧ wake = true
    | .decide _ answer => answer.via = channelServicenow
    | _ => False
  | .utcnow | .changeApproval _ => True
  | _ => False

/-- The operations on a ticket. -/
def Op.ofTicket : Op → Prop
  | .ticketGet _ | .ticketPatch .. => True
  | _ => False

/-- The operations of a worker that are about its job and its run. -/
def Op.ofWorker : Op → Prop
  | .db c => match c with
    | .claimJob _ | .parkJob .. | .releaseJob .. | .loadRun _ | .loadJournal _ | .recordMatch ..
    | .recordAdvised .. | .journalStep .. | .publishedSops | .versionForResume .. => True
    | .concludeRun _ _ status => status = .done ∨ status = .dead
    | .finishJob _ status => status = .done
    | _ => False
  | .callAdapter _ _ _ _ looking => looking = none
  | .connectors | .extract _ | .rank _ | .ticketGet _ | .ticketPatch .. => True
  | _ => False

theorem Op.ofTicket.worker {o : Op} (h : o.ofTicket) : o.ofWorker := by
  cases o with
  | ticketGet sysId => trivial
  | ticketPatch sysId fields => trivial
  | _ => exact h.elim

section
variable {site : Site} {C : ∀ {α : Type}, Prog α → Prop}
  (hC : Program.Compositional (E := Calls) (ε := Exn) C)
include hC

/-! ## An attempt -/

namespace ActionService

/-- How a stage before the write stops an action. -/
def Stop.Early (stop : Stop) : Prop :=
  stop.toStatus ∈ [ActionStatus.aborted, .invalid, .notDone] ∧ stop.event ∈ actionEvents

omit hC in
theorem early_mk {toStatus : ActionStatus} {event : String} (message evidence : String)
    (h : toStatus ∈ [ActionStatus.aborted, .invalid, .notDone] ∧ event ∈ actionEvents) :
    Stop.Early ⟨toStatus, event, message, evidence⟩ := h

omit hC in
/-- A rule is cut before it is set. -/
theorem told_values {f : Finish}
    (hcode : ∀ code, f.reasonCode = some code → code = changeUnavailable) : f.values.Told := by
  refine ⟨fun rule h => ?_, hcode⟩
  have hrule : (if f.toStatus = .denied then some (clipText 300 f.message) else none) =
      some rule := h
  split at hrule
  · obtain rfl := Option.some.inj hrule
    exact length_clipText 300 _
  · cases hrule

section
variable (hask : ∀ o : Op, o.ofStages → o.Unopening → C (ask o))
include hask

theorem of_killSwitches : C killSwitches :=
  hC.bind (hask _ trivial trivial) fun _ => hC.bind (hask _ trivial trivial) fun _ => hC.ret _

theorem of_finish (row : ActionRow) {fromStatuses : List ActionStatus} {f : Finish}
    (hnext : ∀ st ∈ fromStatuses, f.toStatus ∈ st.next)
    (hto : f.toStatus ∉ [ActionStatus.pending, .approved, .allowed, .executing])
    (hevent : f.event ∈ actionEvents) (hplain : Plain f.payload)
    (hcode : ∀ code, f.reasonCode = some code → code = changeUnavailable) :
    C (finish row fromStatuses f) := by
  have hwhole : Plain (("message", .str f.message) :: f.payload) := by
    intro p hp
    rcases List.mem_cons.mp hp with rfl | hp
    · exact (by decide : "message" ≠ "action_id" ∧ "message" ≠ "status")
    · exact hplain p hp
  refine hC.bind (hask (.db _) ⟨hnext, hto, ⟨hevent, hwhole⟩, told_values hcode⟩ ⟨rfl, rfl⟩)
    fun moved => ?_
  cases moved with
  | some row => exact hC.ret _
  | none => exact hask (.db (.get _)) trivial trivial

theorem of_obtainRow (call : ActionCall) (capability : Capability) (runId : Nat)
    (hdecide : C (decide site call capability runId
      (actionHash site call.incident call.sop capability.id call.step.parameters))) :
    C (obtainRow site call capability runId) := by
  refine hC.bind (hask (.db (.find ..)) trivial trivial) fun found => ?_
  cases found with
  | some row =>
    refine Program.Compositional.ite (fun _ => hC.bind (of_finish hC hask row (by decide)
      (by decide) (by decide) plain_nil fun _ h => nomatch h) fun _ => hC.ret _) fun _ => hC.ret _
  | none => exact hdecide

omit hask in
theorem of_ensureChange (hask : ∀ o : Op, o.ofStages → C (ask o)) (call : ActionCall)
    (row : ActionRow) : C (ensureChange call row) := by
  refine Program.Compositional.ite (fun _ => hC.ret _) fun _ => hC.bind (hC.attempt
    (Program.Compositional.ite (fun _ => hC.raise _) fun _ => hask (.openChange ..) trivial))
      fun opened => ?_
  cases opened with
  | error e =>
    have hto : (noChange e).toStatus = .denied := rfl
    refine of_finish hC (fun o h _ => hask o h) row ?_ ?_ ?_ ?_ fun code h =>
      (Option.some.inj h).symm
    · rw [hto]
      decide
    · rw [hto]
      decide
    · show "policy.decided" ∈ actionEvents
      decide
    · show Plain [("verdict", _), ("reason_code", _)]
      simp [Plain]
  | ok ref =>
    refine hask (.db (.note ..)) ⟨⟨?_, by simp [Plain]⟩, rfl, told_of_none rfl rfl⟩
    show "change.opened" ∈ noteEvents
    decide

theorem of_requestApproval (row : ActionRow) : C (requestApproval site row) := by
  refine hC.bind (Program.Compositional.ite (fun _ => ?_) fun _ => hC.ret _) fun asked =>
    hC.bind (hask .utcnow trivial trivial) fun now => ?_
  · exact hC.bind (hask (.db .getPolicy) trivial trivial) fun _ =>
      hC.bind (hC.attempt (hask (.requestChangeApproval ..) trivial trivial)) fun _ => hC.ret _
  refine hask (.db (.note ..)) ⟨⟨?_, by simp [Plain]⟩, rfl, told_of_none rfl rfl⟩ ⟨rfl, rfl⟩
  show "approval.requested" ∈ noteEvents
  decide

theorem of_lapse (row : ActionRow) (now : Nat) : C (lapse site row now) := by
  unfold lapse
  cases row.expiresAt with
  | none => exact hC.raise _
  | some expiresAt =>
    refine Program.Compositional.ite (fun _ => hC.bind (hask (.db (.transition ..)) ?_ ⟨rfl, rfl⟩)
      fun expired => ?_) fun _ => hC.ret _
    · show (∀ st ∈ [ActionStatus.pending], ActionStatus.expired ∈ st.next) ∧
        ActionStatus.expired ∉ [ActionStatus.pending, .approved, .allowed, .executing] ∧
          ("approval.expired" ∈ actionEvents ∧ Plain [("expired_at", _)]) ∧ Values.Told _
      exact ⟨by decide, by decide, ⟨by decide, by simp [Plain]⟩, told_of_none rfl rfl⟩
    · cases expired with
      | some row => exact hC.ret _
      | none => exact hask (.db (.get _)) trivial trivial

theorem of_await (call : ActionCall) (capability : Capability) (row : ActionRow) :
    C (await site call capability row) := by
  refine Program.Compositional.ite (fun _ => hC.bind (Program.Compositional.ite
    (fun _ => of_requestApproval hC hask row) fun _ => hC.ret _) fun row =>
      hC.bind (hask .utcnow trivial trivial) fun now =>
        hC.bind (of_lapse hC hask row now) fun row => ?_)
    fun _ => hC.ret _
  exact Program.Compositional.ite (fun _ => hC.raise _) fun _ => hC.ret _

theorem of_stopped (call : ActionCall) (row : ActionRow) {stop : Stop} (h : stop.Early) :
    C (stopped site call row stop) := by
  obtain ⟨hto, hevent⟩ := h
  refine hC.bind (of_finish hC hask row (fun st hst => ?_) ?_ hevent plain_nil
      fun _ h => nomatch h) fun row =>
    hC.ofExcept _
  · have hall : ∀ st ∈ waiting, ∀ b ∈ [ActionStatus.aborted, .invalid, .notDone], b ∈ st.next := by
      decide
    exact hall st hst _ hto
  · have hall : ∀ b ∈ [ActionStatus.aborted, .invalid, .notDone],
        b ∉ [ActionStatus.pending, .approved, .allowed, .executing] := by decide
    exact hall _ hto

end

omit hC in
/-- The stages before the write stop an action only in these ways. -/
theorem early_firstStop {stages : List (Prog (Option Stop))}
    (h : ∀ stage ∈ stages, stage.Always fun r => ∀ stop, r = .ok (some stop) → stop.Early) :
    (firstStop stages).Always fun r => ∀ stop, r = .ok (some stop) → stop.Early := by
  induction stages with
  | nil => exact fun stop hstop => nomatch hstop
  | cons stage stages ih =>
    refine Program.Always.bind ((h stage (List.mem_cons_self ..)).mono fun r hr => ?_)
    match r with
    | .error e => exact fun stop hstop => nomatch hstop
    | .ok (some stop) => exact fun stop' hstop => hr stop' hstop
    | .ok none => exact ih fun stage hs => h stage (List.mem_cons_of_mem _ hs)

omit hC in
theorem early_switchStop : switchStop.Always fun r => ∀ stop, r = .ok (some stop) → stop.Early := by
  refine Program.Always.bind (Program.Always.trivial fun r => ?_)
  cases r with
  | error e => exact fun stop hstop => nomatch hstop
  | ok on =>
    intro stop hstop
    split at hstop
    · cases hstop
    · cases hstop
      exact early_mk _ _ (by decide)

omit hC in
theorem early_timeStop (row : ActionRow) :
    (timeStop row).Always fun r => ∀ stop, r = .ok (some stop) → stop.Early := by
  refine Program.Always.bind (Program.Always.trivial fun r => ?_)
  cases r with
  | error e => exact fun stop hstop => nomatch hstop
  | ok now =>
    intro stop hstop
    split at hstop
    · cases hstop
      exact early_mk _ _ (by decide)
    · cases hstop

omit hC in
theorem early_preCheckStop (call : ActionCall) (checks : List PreCheck) :
    (preCheckStop site call checks).Always fun r => ∀ stop, r = .ok (some stop) → stop.Early := by
  induction checks with
  | nil => exact fun stop hstop => nomatch hstop
  | cons check checks ih =>
    refine Program.Always.bind (Program.Always.trivial fun r => ?_)
    cases r with
    | error e => exact fun stop hstop => nomatch hstop
    | ok a =>
      refine Program.Always.bind (Program.Always.trivial fun r => ?_)
      cases r with
      | error e => exact fun stop hstop => nomatch hstop
      | ok ok =>
        cases ok with
        | true => exact ih
        | false =>
          intro stop hstop
          cases hstop
          exact early_mk _ _ (by decide)

omit hC in
theorem early_dryRunStop (call : ActionCall) (capability : Capability) :
    (dryRunStop call capability).Always fun r => ∀ stop, r = .ok (some stop) → stop.Early := by
  unfold dryRunStop
  split
  · refine Program.Always.bind (Program.Always.trivial fun r => ?_)
    cases r with
    | error e => exact fun stop hstop => nomatch hstop
    | ok trial =>
      intro stop hstop
      split at hstop <;> split at hstop
      all_goals
        cases hstop
        try exact early_mk _ _ (by decide)
  · exact fun stop hstop => nomatch hstop

/-- The stages of an attempt before its write. -/
def stages (site : Site) (call : ActionCall) (capability : Capability) (row : ActionRow) :
    List (Prog (Option Stop)) :=
  [switchStop, timeStop row, preCheckStop site call capability.preChecks,
    dryRunStop call capability]

omit hC in
theorem early_stages (call : ActionCall) (capability : Capability) (row : ActionRow) :
    (firstStop (stages site call capability row)).Always fun r =>
      ∀ stop, r = .ok (some stop) → stop.Early := by
  refine early_firstStop fun stage hstage => ?_
  rcases List.mem_cons.mp hstage with rfl | hstage
  · exact early_switchStop
  rcases List.mem_cons.mp hstage with rfl | hstage
  · exact early_timeStop row
  rcases List.mem_cons.mp hstage with rfl | hstage
  · exact early_preCheckStop call capability.preChecks
  · cases List.mem_singleton.mp hstage
    exact early_dryRunStop call capability

section
variable (hask : ∀ o : Op, o.ofStages → o.Unopening → C (ask o))
include hask

theorem of_stages (call : ActionCall) (capability : Capability) (row : ActionRow) :
    C (firstStop (stages site call capability row)) := by
  have hfirst : ∀ {ps : List (Prog (Option Stop))}, (∀ p ∈ ps, C p) → C (firstStop ps) := by
    intro ps
    induction ps with
    | nil => exact fun _ => hC.ret _
    | cons p ps ih =>
      intro hps
      refine hC.bind (hps p (List.mem_cons_self ..)) fun stop => ?_
      cases stop with
      | some stop => exact hC.ret _
      | none => exact ih fun q hq => hps q (List.mem_cons_of_mem _ hq)
  have hchecks : ∀ checks, C (preCheckStop site call checks) := by
    intro checks
    induction checks with
    | nil => exact hC.ret _
    | cons check checks ih =>
      exact hC.bind (hask (.callAdapter ..) trivial trivial) fun a =>
        hC.bind (hC.ofExcept _) fun ok =>
          Program.Compositional.ite (fun _ => ih) fun _ => hC.ret _
  refine hfirst fun stage hstage => ?_
  rcases List.mem_cons.mp hstage with rfl | hstage
  · exact hC.bind (of_killSwitches hC hask) fun on => hC.ret _
  rcases List.mem_cons.mp hstage with rfl | hstage
  · exact hC.bind (hask .utcnow trivial trivial) fun now => hC.ret _
  rcases List.mem_cons.mp hstage with rfl | hstage
  · exact hchecks capability.preChecks
  · cases List.mem_singleton.mp hstage
    refine Program.Compositional.ite (fun _ => hC.bind (hC.attempt ?_) fun trial => hC.ret _)
      fun _ => hC.ret _
    exact hC.bind (hask (.checkCall ..) trivial trivial) fun _ =>
      hask (.dryRun ..) trivial trivial

theorem of_authorise (row : ActionRow) : C (authorise row) := by
  refine hC.bind (hask .localSwitch trivial trivial) fun file =>
    hC.bind (hask (.db (.authoriseExecution ..)) trivial trivial) fun authorised => ?_
  cases authorised with
  | error why => exact hC.ret _
  | ok executing => exact hC.bind (hask (.mint ..) trivial trivial) fun grant => hC.ret _

theorem of_invokeWrite (purpose : Purpose) (row : ActionRow) (capabilityId : String)
    (parameters : Json) (grant : Grant) :
    C (invokeWrite site purpose row capabilityId parameters grant) :=
  hC.bind (hask (.checkCall ..) trivial trivial) fun _ => hC.bind (of_killSwitches hC hask) fun _ =>
    Program.Compositional.ite (fun _ => hC.raise _) fun _ =>
      hask (.write ..) trivial trivial

theorem of_noteChange (row : ActionRow) (text : String) : C (noteChange row text) :=
  Program.Compositional.ite (fun _ => hC.ret _) fun _ =>
    hC.bind (hC.attempt (hask (.noteChange ..) trivial trivial)) fun _ => hC.ret _

theorem of_closeChange (row : ActionRow) (successful : Bool) (notes : String) :
    C (closeChange row successful notes) := by
  refine Program.Compositional.ite (fun _ => hC.ret _) fun _ =>
    hC.bind (hC.attempt (hask (.closeChange ..) trivial trivial)) fun closed =>
      hC.bind (hask (.db (.note ..)) ⟨⟨?_, by simp [Plain]⟩, rfl, told_of_none rfl rfl⟩ ⟨rfl, rfl⟩)
        fun _ => hC.ret _
  split <;> decide

theorem of_undo (row : ActionRow) (declared : String) (parameters : Json) :
    C (undo site row declared parameters) := by
  refine hC.bind (hC.bind (of_killSwitches hC hask) fun on => Program.Compositional.ite
    (fun _ => hC.ret _) fun _ => hC.bind (hask (.db (.transition ..)) ?_ ⟨rfl, rfl⟩) fun moved => ?_)
      fun grant => ?_
  · show (∀ st ∈ [ActionStatus.executing, .executed], ActionStatus.rollingBack ∈ st.next) ∧
      ActionStatus.rollingBack ∉ [ActionStatus.pending, .approved, .allowed, .executing] ∧
        ("action.rolling_back" ∈ actionEvents ∧ Plain [("rollback", _), ("parameters", _)]) ∧ Values.Told _
    exact ⟨by decide, by decide, ⟨by decide, by simp [Plain]⟩, told_of_none rfl rfl⟩
  · cases moved with
    | none => exact hC.ret _
    | some _ => exact hC.bind (hask (.mint ..) trivial trivial) fun grant => hC.ret _
  · cases grant with
    | none => exact hC.ret _
    | some grant =>
      exact hC.bind (hC.attempt (of_invokeWrite hC hask ..)) fun undone => hC.ret _

theorem of_settleRollback (call : ActionCall) (capability : Capability) (row : ActionRow)
    (why evidence : String) : C (settleRollback site call capability row why evidence) := by
  refine Program.Compositional.ite (fun _ => ?_) fun _ => hC.bind (of_undo hC hask ..)
    fun undone => ?_
  · refine of_finish hC hask row ?_ ?_ ?_ ?_ fun _ h => nomatch h
    · show ∀ st ∈ openStatuses, ActionStatus.failed ∈ st.next
      decide
    · show ActionStatus.failed ∉ [ActionStatus.pending, .approved, .allowed, .executing]
      decide
    · show "action.failed" ∈ actionEvents
      decide
    · show Plain [("rollback", _), ("reason", _)]
      simp [Plain]
  · unfold afterUndo
    split
    · refine of_finish hC hask row ?_ ?_ ?_ ?_ fun _ h => nomatch h
      · show ∀ st ∈ openStatuses, ActionStatus.rolledBack ∈ st.next
        decide
      · show ActionStatus.rolledBack ∉ [ActionStatus.pending, .approved, .allowed, .executing]
        decide
      · show "action.rolled_back" ∈ actionEvents
        decide
      · show Plain [("rollback", _), ("reason", _)]
        simp [Plain]
    · refine of_finish hC hask row ?_ ?_ ?_ ?_ fun _ h => nomatch h
      · show ∀ st ∈ openStatuses, ActionStatus.rollbackFailed ∈ st.next
        decide
      · show ActionStatus.rollbackFailed ∉ [ActionStatus.pending, .approved, .allowed, .executing]
        decide
      · show "action.rollback_failed" ∈ actionEvents
        decide
      · show Plain [("rollback", _), ("reason", _)]
        simp [Plain]

theorem of_rollBack (call : ActionCall) (capability : Capability) (row : ActionRow)
    (why evidence : String) : C (rollBack site call capability row why evidence) :=
  hC.bind (of_settleRollback hC hask ..) fun _ => hC.bind (of_closeChange hC hask ..) fun _ =>
    hC.ofExcept _

theorem of_verifyReads (step : SOPStep) (action : Nat) (spec : Verify)
    (assertion parameters : Json) (n attempt : Nat) (why : String) (last : Option AdapterResult) :
    C (verifyReads site step action spec assertion parameters n attempt why last) := by
  induction n generalizing attempt why last with
  | zero => exact hC.ret _
  | succ n ih =>
    refine hC.bind (hask (.callAdapter ..) trivial trivial) fun a =>
      hC.bind (hC.ofExcept _) fun seen => ?_
    cases seen with
    | failed error => exact ih ..
    | holds result => exact hC.ret _
    | failedAgain result => exact hC.ret _
    | notYet result => exact ih ..

theorem of_afterReads (call : ActionCall) (capability : Capability) (row : ActionRow)
    (assertion evidence : String) (lost : Option String) (seen : Seen) :
    C (afterReads site call capability row assertion evidence lost seen) := by
  cases seen with
  | shown attempts result =>
    refine hC.bind (of_finish hC hask row ?_ ?_ ?_ ?_ fun _ h => nomatch h) fun row =>
      hC.bind (of_closeChange hC hask ..) fun _ => hC.ofExcept _
    · show ∀ st ∈ [ActionStatus.executed, .executing], ActionStatus.verified ∈ st.next
      decide
    · show ActionStatus.verified ∉ [ActionStatus.pending, .approved, .allowed, .executing]
      decide
    · show "action.verified" ∈ actionEvents
      decide
    · show Plain [("assertion", _), ("attempts", _)]
      simp [Plain]
  | notShown why last =>
    cases lost with
    | none => exact of_rollBack hC hask ..
    | some lost =>
      refine hC.bind (of_finish hC hask row ?_ ?_ ?_ ?_ fun _ h => nomatch h) fun row =>
        hC.ofExcept _
      · show ∀ st ∈ [ActionStatus.executing], ActionStatus.failed ∈ st.next
        decide
      · show ActionStatus.failed ∉ [ActionStatus.pending, .approved, .allowed, .executing]
        decide
      · show "action.failed" ∈ actionEvents
        decide
      · exact plain_nil

theorem of_verifyAndFinish (call : ActionCall) (capability : Capability) (row : ActionRow)
    (evidence : String) (lost : Option String) :
    C (verifyAndFinish site call capability row evidence lost) := by
  unfold verifyAndFinish
  cases capability.verify with
  | none => exact hC.raise _
  | some spec =>
    exact hC.bind (hC.ofExcept _) fun plan => hC.bind (of_verifyReads hC hask ..) fun seen =>
      of_afterReads hC hask ..

theorem of_send (call : ActionCall) (capability : Capability) (row : ActionRow) (grant : Grant) :
    C (send site call capability row grant) := by
  refine hC.bind (hC.attempt (of_invokeWrite hC hask ..)) fun written => ?_
  cases written with
  | error e =>
    exact Program.Compositional.ite (fun _ => of_verifyAndFinish hC hask ..) fun _ =>
      of_rollBack hC hask ..
  | ok a =>
    refine Program.Compositional.ite (fun _ => hC.bind (hask (.db (.transition ..)) ?_ ⟨rfl, rfl⟩)
      fun moved => ?_) fun _ => of_rollBack hC hask ..
    · show (∀ st ∈ [ActionStatus.executing], ActionStatus.executed ∈ st.next) ∧
        ActionStatus.executed ∉ [ActionStatus.pending, .approved, .allowed, .executing] ∧
          ("action.executed" ∈ actionEvents ∧ Plain [("output_sha256", _)]) ∧ Values.Told _
      exact ⟨by decide, by decide, ⟨by decide, by simp [Plain]⟩, told_of_none rfl rfl⟩
    · cases moved with
      | none => exact hC.raise _
      | some row =>
        exact hC.bind (of_noteChange hC hask ..) fun _ => of_verifyAndFinish hC hask ..

theorem of_act (call : ActionCall) (capability : Capability) (row : ActionRow) :
    C (act site call capability row) := by
  refine hC.bind_of_always (Q := fun stop => ∀ s, stop = some s → s.Early)
    (.other "" "") (of_stages hC hask call capability row)
    ((early_stages call capability row).mono fun r hr stop hstop s hs => ?_) fun stop hstop => ?_
  · exact hr s (hs ▸ hstop)
  · cases stop with
    | some s => exact of_stopped hC hask call row (hstop s rfl)
    | none =>
      refine hC.bind (of_authorise hC hask row) fun authorised => ?_
      cases authorised with
      | error why =>
        refine of_stopped hC hask call row ?_
        unfold notAuthorised
        split
        · exact early_mk _ _ (by decide)
        split
        · exact early_mk _ _ (by decide)
        · exact early_mk _ _ (by decide)
      | ok granted => exact of_send hC hask ..

theorem of_proceed (call : ActionCall) (capability : Capability) (row : ActionRow) :
    C (proceed site call capability row) := by
  unfold proceed
  split
  · exact of_act hC hask ..
  · exact of_act hC hask ..
  · exact of_verifyAndFinish hC hask ..
  · exact of_verifyAndFinish hC hask ..
  · exact hC.bind (of_finish hC hask row (by decide) (by decide) (by decide) plain_nil
      fun _ h => nomatch h) fun row =>
      hC.ofExcept _
  · exact hC.ofExcept _

/-- An attempt, with what is known of how it decides and how it comes by its change. -/
theorem of_perform_opened (call : ActionCall)
    (hdecide : ∀ capability runId, site.registry.capability call.step.capability = some capability →
      C (decide site call capability runId
        (actionHash site call.incident call.sop capability.id call.step.parameters)))
    (hchange : ∀ row, C (ensureChange call row)) : C (perform site call) := by
  unfold perform
  split
  · exact hC.ret _
  · rename_i capability hcapability
    refine Program.Compositional.ite (fun _ => hC.ret _) fun _ => ?_
    cases call.runId with
    | none => exact hC.ret _
    | some runId =>
      refine hC.bind (of_obtainRow hC hask _ _ _ (hdecide _ _ hcapability)) fun row => ?_
      cases row with
      | none => exact hC.raise _
      | some row =>
        have hrest : ∀ capability row, C (do
            let row ← await site call capability row
            proceed site call capability row) := fun _ _ =>
          hC.bind (of_await hC hask ..) fun _ => of_proceed hC hask ..
        exact Program.Compositional.ite (fun _ => hC.bind (hchange _) (hrest _)) fun _ =>
          hrest _ _

omit hask in
/-- An attempt, with what is known of how it decides. -/
theorem of_perform_decided (hask : ∀ o : Op, o.ofStages → C (ask o)) (call : ActionCall)
    (hdecide : ∀ capability runId wanted, C (decide site call capability runId wanted)) :
    C (perform site call) :=
  of_perform_opened hC (fun o h _ => hask o h) call (fun _ _ _ => hdecide ..)
    (of_ensureChange hC hask call)

end

/-- A decision, with what its record says of the expiry. -/
theorem of_decide_recording (hask : ∀ o : Op, o.ofStages → C (ask o))
    (hrecord : ∀ (d : Decision) payload, d.Stated payload →
      (d.status = .pending → d.expiresAt.isSome = true) → C (askDb (.recordDecision d payload)))
    (call : ActionCall) (capability : Capability) (runId : Nat) (wanted : String) :
    C (decide site call capability runId wanted) := by
  refine hC.bind (hask (.db .getPolicy) trivial) fun policy => hC.bind
    (hask (.db (.situation ..)) trivial) fun found => hC.bind (hask .utcnow trivial) fun now =>
      hC.bind (of_killSwitches hC fun o h _ => hask o h) fun on =>
        hC.bind (hask (.refusals ..) trivial) fun refusals => ?_
  refine hC.bind (hC.attempt (hrecord _ _ ?_ fun hpending => ?_)) fun recorded => ?_
  · exact ⟨rfl, by simp [Plain, decisionPayload], rfl⟩
  · exact Option.isSome_of_eq_some (if_pos hpending)
  cases recorded with
  | ok row => exact hC.ret _
  | error e =>
    exact Program.Compositional.ite (fun _ => hask (.db (.find ..)) trivial)
      fun _ => hC.raise _

theorem of_decide (hask : ∀ o : Op, o.ofAttempt → C (ask o)) (call : ActionCall)
    (capability : Capability) (runId : Nat) (wanted : String) :
    C (decide site call capability runId wanted) :=
  of_decide_recording hC (fun o h => hask o h.attempt)
    (fun d payload h _ => hask (.db (.recordDecision d payload)) h) ..

/-- **An attempt.** -/
theorem of_perform (hask : ∀ o : Op, o.ofAttempt → C (ask o)) (call : ActionCall) :
    C (perform site call) :=
  of_perform_decided hC (fun o h => hask o h.attempt) call fun _ _ _ => of_decide hC hask ..

/-! ## The sweeper, and the approvers -/

/-- What is decided on the change record is about the row it was opened for. -/
theorem of_collect (row : ActionRow)
    (hask : ∀ o : Op, o.ofSweep → o.Unopening →
      (∀ id a, o = .db (.decide id a) → id = row.id) → C (ask o)) :
    C (collect site row) := by
  have hproblem : ∀ found, C (problemWith site row found) := fun found =>
    Program.Compositional.ite (fun _ => hC.ret _) fun _ => Program.Compositional.ite
      (fun _ => hC.ret _) fun _ => Program.Compositional.ite (fun _ =>
        hC.bind (hask (.db (.authorEmail _)) trivial trivial fun _ _ h => nomatch h) fun _ => hC.ret _)
          fun _ => hC.ret _
  refine hC.bind (hask (.changeApproval _) trivial trivial fun _ _ h => nomatch h) fun found =>
    Program.Compositional.ite (fun _ => hC.ret _) fun _ => hC.bind (hproblem found) fun problem =>
      Program.Compositional.ite (fun _ => hC.bind (hask (.db (.transition ..))
        ⟨rfl, .inr rfl, ⟨by decide, by simp [Plain]⟩, rfl⟩ ⟨rfl, rfl⟩ fun _ _ h => nomatch h)
          fun _ => hC.ret _) fun _ =>
          hC.bind (hC.tryCatch (hC.bind (hask (.db (.decide ..)) rfl trivial ?_) fun expired =>
            Program.Compositional.ite (fun _ => hC.raise _) fun _ => hC.ret _) fun e => ?_)
              fun _ => hC.ret _
  · intro id a h
    cases h
    rfl
  · show C (if isActionError e = true then (.ret () : Prog Unit) else .raise e)
    exact Program.Compositional.ite (fun _ => hC.ret _) fun _ => hC.raise _

/-- The change record is asked only where the row lists that channel. -/
theorem of_sweepRow (now : Nat) (pollDue : Bool) (row : ActionRow)
    (hask : ∀ o : Op, o.ofSweep → o.Unopening →
      (∀ id a, o = .db (.decide id a) → id = row.id ∧ channelServicenow ∈ row.channels) →
        C (ask o)) : C (sweepRow site now pollDue row) := by
  refine Program.Compositional.ite (fun _ => hC.bind (hask (.db (.transition ..))
    ⟨rfl, .inl rfl, ⟨by decide, by simp [Plain]⟩, rfl⟩ ⟨rfl, rfl⟩ fun _ _ h => nomatch h)
      fun _ => hC.ret _) fun _ =>
      Program.Compositional.ite (fun hlisted => hC.tryCatch (of_collect hC row fun o ho hun hid => ?_)
        fun _ => hC.ret _) fun _ => hC.ret _
  exact hask o ho hun fun id a h => ⟨hid id a h, hlisted.1⟩

theorem of_sweepRows (now : Nat) (pollDue : Bool) {rows : List ActionRow}
    (h : ∀ row ∈ rows, C (sweepRow site now pollDue row)) :
    C (sweepRows site now pollDue rows) := by
  induction rows with
  | nil => exact hC.ret _
  | cons row rows ih =>
    exact hC.bind (h row (List.mem_cons_self ..)) fun _ =>
      hC.bind (ih fun row hrow => h row (List.mem_cons_of_mem _ hrow)) fun _ => hC.ret _

section
variable (hask : ∀ o : Op, o.ofSweep → o.Unopening → C (ask o))
include hask

theorem of_sweep (pollDue : Bool) : C (sweep site pollDue) :=
  hC.bind (hask (.db .pending) trivial trivial) fun _ =>
    hC.bind (hask .utcnow trivial trivial) fun now => of_sweepRows hC now pollDue fun row _ =>
      of_sweepRow hC now pollDue row fun o ho hun _ => hask o ho hun

end

end ActionService

/-! ## A worker -/

namespace IncidentProcessor

omit hC in
theorem mem_ruleMatch {incident : Incident} {sop : SOP} {candidates : List SOP}
    (h : (ruleMatch site incident candidates).sop = some sop) : sop ∈ candidates := by
  obtain ⟨i, -, hi⟩ := Option.bind_eq_some_iff.mp h
  exact List.mem_of_getElem? hi

omit hC in
/-- What is matched is among the candidates, whoever picked it. -/
theorem mem_advisedMatch {incident : Incident} {sop : SOP} {candidates : List SOP} {i : Nat}
    {rationale : String} (h : (advisedMatch site incident candidates i rationale).sop = some sop) :
    sop ∈ candidates := by
  unfold advisedMatch at h
  cases hpicked : candidates[i]? with
  | none =>
    rw [hpicked] at h
    exact mem_ruleMatch h
  | some picked =>
    rw [hpicked] at h
    dsimp only at h
    split at h
    · exact mem_ruleMatch h
    · split at h
      · split at h
        · exact mem_ruleMatch h
        · cases h
          exact List.mem_of_getElem? hpicked
      · exact mem_ruleMatch h

omit hC in
/-- What is found is among the SOPs that can run. -/
theorem matchSop_mem {incident : Incident} {sops : List SOP} {advisor : Bool} :
    (matchSop site incident sops advisor).Always fun r => ∀ found, r = .ok found →
      ∀ sop, found.sop = some sop → sop ∈ executableSops site sops := by
  unfold matchSop
  dsimp only
  split
  · rintro found ⟨⟩ sop hsop
    exact mem_ruleMatch hsop
  · refine Program.Always.bind (Program.Always.attempt (Program.Always.trivial fun advice => ?_))
    rintro found ⟨⟩ sop hsop
    cases advice with
    | error e => exact mem_ruleMatch hsop
    | ok pick =>
      cases pick with
      | none => exact mem_ruleMatch hsop
      | some pick => exact mem_advisedMatch hsop

section
variable (hticket : ∀ o : Op, o.ofTicket → C (ask o))
include hticket

theorem of_claimTicket (incident : Incident) : C (claimTicket site incident) := by
  refine Program.Compositional.ite (fun _ => hC.ret _) fun _ => hC.bind
    (hticket (.ticketGet _) trivial) fun current => Program.Compositional.ite (fun _ => hC.ret _)
      fun _ => Program.Compositional.ite (fun _ => hC.ret _) fun _ =>
        Program.Compositional.ite (fun _ => hC.ret _) fun _ => hC.bind
          (hticket (.ticketPatch ..) trivial) fun _ => hC.bind (hticket (.ticketGet _) trivial)
            fun after => ?_
  exact Program.Compositional.ite (fun _ => hC.ret _) fun _ => hC.ret _

theorem of_claim (incident : Incident) : C (claim site incident) := by
  refine hC.bind (hC.attempt (of_claimTicket hC hticket incident)) fun result => ?_
  cases result with
  | error e => exact hC.raise _
  | ok result => exact Program.Compositional.ite (fun _ => hC.ret _) fun _ => hC.ret _

theorem of_escalate (incident : Incident) : C (escalate site incident) :=
  hC.bind (hC.attempt (hticket (.ticketPatch ..) trivial)) fun _ => hC.ret _

theorem of_concludeUnmatched (incident : Incident) (sop : Option SOP) (reason : String) :
    C (concludeUnmatched site incident sop reason) :=
  hC.bind (of_escalate hC hticket incident) fun _ => hC.ret _

theorem of_postConclusion (incident : Incident) (summary : ExecutionSummary) :
    C (postConclusion site incident summary) := by
  refine Program.Compositional.ite (fun _ => hC.bind ?_ fun error => ?_) fun _ =>
    hC.bind (of_escalate hC hticket incident) fun _ => hC.ret _
  · exact hC.bind (hC.attempt (hticket (.ticketPatch ..) trivial)) fun _ => hC.ret _
  · cases error with
    | none => exact hC.ret _
    | some error => exact hC.bind (of_escalate hC hticket incident) fun _ => hC.ret _

end
end IncidentProcessor

section
variable (hask : ∀ o : Op, o.ofWorker → C (ask o))
include hask

namespace IncidentProcessor

theorem of_matchSop (incident : Incident) (sops : List SOP) (advisor : Bool) :
    C (matchSop site incident sops advisor) :=
  Program.Compositional.ite (fun _ => hC.ret _) fun _ =>
    hC.bind (hC.attempt (hask (.rank _) trivial)) fun _ => hC.ret _

theorem of_carriedOut (incident : Incident) (sop : SOP) (runId : Nat)
    (hperform : ∀ call, call.sop = sop → C (ActionService.perform site call)) (o : EngineOp) :
    C (o.carriedOut site incident sop runId) := by
  cases o with
  | connectors => exact hC.attempt (hask .connectors trivial)
  | stepStarted step => exact hC.attempt (hask (.db (.journalStep ..)) trivial)
  | stepCompleted step result => exact hC.attempt (hask (.db (.journalStep ..)) trivial)
  | callAdapter => exact hC.attempt (hask (.callAdapter ..) rfl)
  | perform step => exact hC.attempt (hperform _ rfl)
  | extract => exact hC.attempt (hask (.extract _) trivial)
  | recordAdvised => exact hC.attempt (hask (.db (.recordAdvised ..)) trivial)

theorem of_executeMatched (incident : Incident) (sop : SOP) (runId : Nat)
    (journal : LoadedJournal) (advisor : Bool)
    (hperform : ∀ call, call.sop = sop → C (ActionService.perform site call)) :
    C (executeMatched site incident sop runId journal advisor) :=
  hC.bind (hC.translate (of_carriedOut hC hask incident sop runId hperform) _) fun summary =>
    of_postConclusion hC (fun o h => hask o h.worker) incident summary

theorem of_afterMatch (incident : Incident) (runId : Nat) (journal : LoadedJournal)
    (advisor resumed : Bool) (found : MatchResult)
    (hperform : ∀ call, found.sop = some call.sop → C (ActionService.perform site call)) :
    C (afterMatch site incident runId journal advisor resumed found) := by
  have hticket : ∀ o : Op, o.ofTicket → C (ask o) := fun o h => hask o h.worker
  unfold afterMatch
  cases hsop : found.sop with
  | none => exact of_concludeUnmatched hC hticket ..
  | some sop =>
    have hcalls : ∀ call, call.sop = sop → C (ActionService.perform site call) := fun call h =>
      hperform call (by rw [hsop, h])
    cases found.confidence with
    | none => exact of_concludeUnmatched hC hticket ..
    | some confidence =>
      exact Program.Compositional.ite (fun _ => of_concludeUnmatched hC hticket ..) fun _ =>
        Program.Compositional.ite (fun _ => of_executeMatched hC hask _ _ _ _ _ hcalls) fun _ =>
          hC.bind (hask (.db (.recordMatch ..)) trivial) fun _ =>
            hC.bind (hC.attempt (hask (.ticketPatch ..) trivial)) fun _ =>
              of_executeMatched hC hask _ _ _ _ _ hcalls

/-- **An attempt at a run** performs actions of the SOPs that it may run only. -/
theorem of_runOnce (incident : Incident) (runId : Nat) (journal : LoadedJournal)
    (sops : List SOP) (advisor : Bool)
    (hperform : ∀ call, call.sop ∈ sops → C (ActionService.perform site call)) :
    C (runOnce site incident runId journal sops advisor) := by
  have hticket : ∀ o : Op, o.ofTicket → C (ask o) := fun o h => hask o h.worker
  refine hC.tryCatch (hC.bind (of_claim hC hticket incident) fun lost => ?_) fun e =>
    Program.Compositional.ite (fun _ => hC.raise _) fun _ =>
      hC.bind (of_escalate hC hticket incident) fun _ => hC.ret _
  cases lost with
  | some summary => exact hC.ret _
  | none =>
    simp only
    cases journal.match? with
    | none =>
      refine hC.bind_of_always (.other "" "") (of_matchSop hC hask ..) matchSop_mem
        fun found hfound => of_afterMatch hC hask _ _ _ _ _ _ fun call hcall => ?_
      exact hperform call (List.mem_of_mem_filter (hfound _ hcall))
    | some stored =>
      simp only
      cases hmatch : storedMatch site sops stored with
      | none => exact hC.bind (of_escalate hC hticket incident) fun _ => hC.ret _
      | some found =>
        refine of_afterMatch hC hask _ _ _ _ _ _ fun call hcall => hperform call ?_
        obtain ⟨kept, hkept, rfl⟩ := Option.map_eq_some_iff.mp hmatch
        obtain rfl : kept = call.sop := Option.some.inj hcall
        exact List.mem_of_mem_filter (List.mem_of_find?_eq_some hkept)

end IncidentProcessor

namespace RunService

theorem of_published (journal : LoadedJournal) : C (published journal) := by
  refine hC.bind (hask (.db .publishedSops) trivial) fun sops => ?_
  cases journal.match? with
  | none => exact hC.ret _
  | some stored =>
    exact Program.Compositional.ite (fun _ => hC.ret _) fun _ =>
      hC.bind (hask (.db (.versionForResume ..)) trivial) fun _ => hC.ret _

theorem of_settleRun (job : ClaimedJob) (incident : Incident)
    (ended : Except Exn ExecutionSummary) : C (settleRun job incident ended) := by
  match ended with
  | .ok summary => exact hask (.db (.concludeRun ..)) (.inl rfl)
  | .error (.suspended reason) => exact hask (.db (.parkJob ..)) trivial
  | .error (.parameter _) => exact hC.raise _
  | .error (.expression _) => exact hC.raise _
  | .error (.other _ _) => exact hC.raise _

section
variable (hperform : ∀ call, C (ActionService.perform site call))
include hperform

theorem of_execute (job : ClaimedJob) (advisor : Bool) : C (execute site job advisor) :=
  hC.bind (hask (.db (.loadRun _)) trivial) fun loaded => Program.Compositional.ite
    (fun _ => hask (.db (.finishJob ..)) rfl) fun _ => Program.Compositional.ite
      (fun _ => hC.bind (IncidentProcessor.of_escalate hC (fun o h => hask o h.worker) _)
        fun _ => hask (.db (.concludeRun ..)) (.inr rfl)) fun _ =>
          hC.bind (hask (.db (.loadJournal _)) trivial) fun journal =>
            hC.bind (of_published hC hask journal) fun _ => hC.bind (hC.attempt
              (IncidentProcessor.of_runOnce hC hask _ _ _ _ _ fun call _ => hperform call)) fun ended =>
                of_settleRun hC hask job loaded.2 ended

end

/-- A worker's turn, by what a run and the sweeper do. -/
theorem of_worker {advisor : Bool} (hexecute : ∀ job, C (execute site job advisor))
    (hsweep : ∀ pollDue, C (ActionService.sweep site pollDue)) (worker : String) (pollDue : Bool) :
    C (workOnce site worker pollDue advisor) := by
  refine hC.bind (hC.attempt (hsweep pollDue)) fun _ =>
    hC.bind (hask (.db (.claimJob worker)) trivial) fun job => ?_
  cases job with
  | none => exact hC.ret _
  | some job =>
    refine hC.bind (hC.attempt (hexecute job)) fun ended => ?_
    cases ended with
    | ok _ => exact hC.ret _
    | error e => exact hC.bind (hC.attempt (hask (.db (.releaseJob ..)) trivial)) fun _ => hC.ret _

/-- **A worker.** -/
theorem of_workOnce (hperform : ∀ call, C (ActionService.perform site call))
    (hsweep : ∀ pollDue, C (ActionService.sweep site pollDue)) (worker : String)
    (pollDue advisor : Bool) : C (workOnce site worker pollDue advisor) :=
  of_worker hC hask (fun job => of_execute hC hask hperform job advisor) hsweep worker pollDue

end RunService
end
end
end L1Agent
