import L1Agent.Actions.WriteOnce

/-! # What the final status of an action says of the target

Under `Op.Faithful` the statuses are true, over every run (`status_tells_truth`).  Without it
they are not: a connector that answers "failed" to a write it has made leaves the action
`failed`, with no mark that the outcome is unknown, and nothing reads the target again.

`StatusTrue` lists what they say: an action that ended before its write had none performed, the
assertion of a verified one held on a read made after its write was authorised, a rolled back one
had its rollback performed, and without the mark nothing is left open.  `status_untrue` is the run
of the connector.
-/
namespace L1Agent
open Interleaving Ledger ActionService

/-- An attempt at an ACTION step of an SOP that the validator accepts.  Rendering has set
the parameters only. -/
def Validated (site : Site) (call : ActionCall) : Prop :=
  validateSop site.eng.catalog call.sop = [] ∧
    ∃ step ∈ call.sop.steps, step.type? = some .action ∧ call.step.shape = step.shape

/-- The verification of such a step makes at least one read. -/
theorem Validated.verifiable {site : Site} {call : ActionCall} (h : Validated site call) :
    Verifiable site call := by
  obtain ⟨hvalid, step, hstep, htype, hshape⟩ := h
  obtain ⟨hobj, hretries⟩ := validateSop_verify hvalid hstep htype
  have hverify : call.step.verify = step.verify := by
    have heq : call.step.shape.verify = step.shape.verify := by rw [hshape]
    exact heq
  intro capability hcap hkind spec plan hspec hplan
  have hmem : capability ∈ site.registry.capabilities := List.mem_of_find?_eq_some hcap
  obtain ⟨v, hv, hnonneg, -⟩ := site.registry.linted capability hmem hkind
  obtain rfl : v = spec := Option.some_inj.mp (hv.symm.trans hspec)
  rw [← hverify] at hobj hretries
  -- The number of further reads is an integer, and not negative.
  obtain ⟨n, hn, hle⟩ : ∃ n : Int, call.step.verify.getD "retries" (.int v.retries) = .int n ∧
      0 ≤ n := by
    unfold Json.getD at hretries ⊢
    cases hget : call.step.verify.get? "retries" with
    | none => exact ⟨v.retries, rfl, hnonneg⟩
    | some j =>
      rw [hget] at hretries
      cases j with
      | int n =>
        simp only [Option.getD_some, intBetween, Bool.and_eq_true, decide_eq_true_eq] at hretries
        exact ⟨n, rfl, hretries.1⟩
      | _ => cases hretries
  have hoption : ∀ key default, verifyOption call.step key default =
      .ok (call.step.verify.getD key default) := by
    intro key default
    rw [verifyOption, Executor.param, if_pos hobj]
  simp only [verifyPlan, hoption, hn, Builtins.toInt, bind, Except.bind] at hplan
  split at hplan
  · rename_i m _ hm _
    cases hm
    cases hplan
    exact hle
  · cases hplan
  · cases hplan

/-- **What the final statuses say of the target.** -/
structure StatusTrue (site : Site) (l : Ledger) : Prop where
  /-- An action that ended before its write had no write performed for it. -/
  unwritten : ∀ a r, l.actions.get? a = some r → r.status.isFinal = true →
    r.status.begun = false → ∀ p, ¬ l.Performed p a
  /-- The assertion of a verified action held on a read made after its write was authorised. -/
  verified : ∀ a r, l.actions.get? a = some r → r.status = .verified → l.Shown site a
  rolledBack : ∀ a r, l.actions.get? a = some r → r.status = .rolledBack →
    l.Performed .rollback a
  rollbackFailed : ∀ a r, l.actions.get? a = some r → r.status = .rollbackFailed →
    ¬ l.Performed .rollback a
  failed : ∀ a r, l.actions.get? a = some r → r.status = .failed → r.unknown = false →
    ¬ l.Performed .write a ∨ l.NotShown site a
  /-- Without the unknown mark nothing is open: what was performed was answered with
  success, or a read has shown it. -/
  settled : ∀ a r, l.actions.get? a = some r → r.status.isFinal = true → r.unknown = false →
    (l.Sure .write a ∨ l.Shown site a) ∧ l.Sure .rollback a
  /-- A change record is closed as successful for an action that is verified only. -/
  closed : ∀ a, l.Done (.closed a true) → ∃ r, l.actions.get? a = some r ∧ r.status = .verified

/-- How an action may end whose write was authorised. -/
theorem ActionStatus.final_of_begun {st : ActionStatus} (hf : st.isFinal = true)
    (hb : st.begun = true) :
    st = verified ∨ st = failed ∨ st = rolledBack ∨ st = rollbackFailed := by
  revert hf hb
  cases st <;> decide

/-- A ledger that is regular and truthful has true final statuses. -/
theorem Ledger.Good.statusTrue {site : Site} {l : Ledger} (h : l.Good site True) :
    StatusTrue site l := by
  have htruth := h.truthful trivial
  have hrow : ∀ {a r}, l.actions.get? a = some r → l.RowTruth site r ∧ r.id = a :=
    fun hr => ⟨htruth.row _ _ hr, ActionTable.get?_id hr⟩
  have hnever : ∀ {a r}, l.actions.get? a = some r → r.status.begun = false →
      ∀ p, ¬ l.Performed p a := by
    intro a r hr hbegun p
    refine h.regular.not_performed hr ?_
    revert hbegun
    cases p <;> cases r.status <;> decide
  refine ⟨fun a r hr _ hbegun => hnever hr hbegun, fun a r hr hs => ?_, fun a r hr hs => ?_,
    fun a r hr hs => ?_, fun a r hr hs hu => ?_, fun a r hr hfinal hu => ?_, htruth.closed⟩
  all_goals
    obtain ⟨htrue, rfl⟩ := hrow hr
    unfold RowTruth at htrue
  · rw [hs] at htrue
    exact htrue
  · rw [hs] at htrue
    exact htrue.2.2
  · rw [hs] at htrue
    exact htrue.2
  · rw [hs] at htrue
    rcases htrue with hmark | ⟨-, hwrite, -⟩
    · rw [hu] at hmark
      cases hmark
    · exact hwrite
  · by_cases hbegun : r.status.begun = true
    · rcases ActionStatus.final_of_begun hfinal hbegun with hs | hs | hs | hs
      · rw [hs] at htrue
        refine ⟨.inr htrue, .inr (h.regular.not_performed hr ?_)⟩
        rw [hs]
        rfl
      · rw [hs] at htrue
        rcases htrue with hmark | ⟨hsure, -, hroll⟩
        · rw [hu] at hmark
          cases hmark
        · exact ⟨.inl hsure, .inr hroll⟩
      · rw [hs] at htrue
        exact ⟨.inl htrue.1, .inl htrue.2.1⟩
      · rw [hs] at htrue
        exact ⟨.inl htrue.1, .inr htrue.2⟩
    · have hnone := hnever hr (Bool.eq_false_iff.mpr hbegun)
      exact ⟨.inl (.inr (hnone .write)), .inr (hnone .rollback)⟩

/-- **The final status of an action tells the truth about the target**, over every run
whose steps are faithful. -/
theorem status_tells_truth (site : Site) (s : Estate) (hs : s.Fresh)
    (d : Config Calls Exn Estate)
    (hd : (site.pipeline (Validated site)).Reaches
      (fun t o ch s => Op.Faithful t ch s.ledger o) (Config.idle s) d) :
    StatusTrue site d.shared.ledger := by
  have hsound := pipeline_sound True (fun _ t o ch s h => h) (fun _ call h => h.verifiable) hs hd
  exact Ledger.Good.statusTrue hsound.1

/-! ## An SOP that acts -/

/-- Restart the job, verify, and resolve. -/
def actingSop : SOP where
  sopId := "restart-job"
  title := "Restart"
  contentHash := "hash"
  changeTemplate := "standard"
  steps :=
    [{ stepId := "restart", stepType := "ACTION", capability := "JOB_RESTART"
       parameters := .obj [("job", .str "billing")], onSuccess := "check", onFailure := "l2" },
      { stepId := "check", stepType := "VERIFY", onSuccess := "done", onFailure := "l2"
        parameters := .obj [("check", .str "MQ_CHECK"), ("assert", .str "result.depth < 5")] },
      { stepId := "done", stepType := "RESOLVE", description := "Resolved by the agent" },
      { stepId := "l2", stepType := "ESCALATE", description := "To L2" }]

/-- The deployment whose validator knows the capability. -/
def actingSite : Site :=
  { sampleSite with
    eng := { sampleEngine with
      catalog := { sampleCatalog with
        findCapability := fun id => sampleSite.registry.capability id
        isStepCapability := fun _ => true } }
    withActions := rfl }

/-- The attempt at its ACTION step. -/
def actingCall : ActionCall where
  step :=
    { stepId := "restart", stepType := "ACTION", capability := "JOB_RESTART"
      parameters := .obj [("job", .str "billing")], onSuccess := "check", onFailure := "l2" }
  incident := sampleIncident
  sop := actingSop
  runId := some 0

theorem actingCall_validated : Validated actingSite actingCall :=
  ⟨by decide +kernel, actingCall.step, List.mem_cons_self .., by decide +kernel, rfl⟩

/-- A check of `Op.Faithful`, for steps that meet no rollback. -/
def Op.faithful (ch : Choice) (l : Ledger) : Op → Bool
  | .write p _ _ _ => !ch.performed || match ch.written with
      | .ok a => a.success
      | .error e => p = .write && e.kind == "OutcomeUnknown"
  | .db (.transition id fromStatuses toStatus _ _ _ _) =>
    match l.actions.get? id with
    | none => true
    | some r => (toStatus ≠ .verified || r.status ∈ fromStatuses || r.status = .verified) &&
        r.status ≠ .rollingBack
  | _ => true

theorem Op.faithful_iff {t : Nat} {ch : Choice} {l : Ledger} {o : Op}
    (h : o.faithful ch l = true) : o.Faithful t ch l := by
  cases o with
  | write p a g call =>
    intro hperf
    simp only [faithful, hperf, Bool.not_true, Bool.false_or] at h
    cases hw : ch.written with
    | ok a =>
      rw [hw] at h
      exact .inl ⟨a, rfl, h⟩
    | error e =>
      rw [hw] at h
      simp only [Bool.and_eq_true, decide_eq_true_eq, beq_iff_eq] at h
      exact .inr ⟨h.1, e, rfl, h.2⟩
  | db c =>
    cases c with
    | transition id fromStatuses toStatus event payload values wake =>
      intro r hr
      simp only [faithful, hr, Bool.and_eq_true, Bool.or_eq_true, decide_eq_true_eq] at h
      refine ⟨fun hv => ?_, fun _ hrolling => absurd hrolling h.2⟩
      rcases h.1 with (hne | hmem) | hs
      · exact absurd hv hne
      · exact .inl hmem
      · exact .inr hs
    | _ => trivial
  | _ => trivial

/-- The attempt as a coroutine. -/
def actingPerform : Prog Unit :=
  (ActionService.perform actingSite actingCall).bind fun _ => .ret ()

theorem actingPerform_starts (n : Nat) (ch : Choice) :
    (actingSite.pipeline (Validated actingSite)).Starts
      (.start actingPerform :: List.replicate n (.op 0 ch)) := by
  intro p hp
  rcases List.mem_cons.mp hp with hp | hp
  · cases hp
    exact .perform actingCall actingCall_validated
  · cases List.eq_of_mem_replicate hp

/-- An attempt that goes through to `verified`. -/
theorem status_tells_truth_sample : ∃ d : Config Calls Exn Estate,
    d.shared.statuses = [.verified] ∧ StatusTrue actingSite d.shared.ledger := by
  have hplay : ((actingSite.pipeline (Validated actingSite)).playIf
      (fun _ o ch s => Op.faithful ch s.ledger o) (Config.idle sampleEstate)
      (.start actingPerform :: List.replicate 23 (.op 0 smooth))).map (fun d =>
        d.shared.statuses) = some [.verified] := by
    decide +kernel
  obtain ⟨d, hd, hstatuses⟩ := Option.map_eq_some_iff.mp hplay
  exact ⟨d, hstatuses, status_tells_truth actingSite sampleEstate sampleEstate_fresh d
    (System.playIf_reaches _ (fun _ _ _ _ h => Op.faithful_iff h) (actingPerform_starts 23 smooth)
      hd)⟩

/-- A connector that makes the write and answers that it failed: the command took effect and
did not answer in time. -/
def lateAnswer : Choice :=
  { smooth with written := .ok { success := false, error := "sendevent did not answer in 60s" } }

/-- What a deed says of a write: its purpose and action, whether it was performed, and
whether it was answered with success. -/
def Deed.write? : Deed → Option (Purpose × Nat × Bool × Bool)
  | .wrote p a _ _ _ performed (.ok answer) => some (p, a, performed, answer.success)
  | .wrote p a _ _ _ performed (.error _) => some (p, a, performed, false)
  | _ => none

theorem Deed.performs_of_write? {p : Purpose} {a : Nat} {accepted : Bool} {d : Deed}
    (h : d.write? = some (p, a, true, accepted)) : d.Performs p a := by
  cases d with
  | wrote q b nonce cap ps performed answer =>
    cases answer <;>
    · simp only [write?, Option.some.injEq, Prod.mk.injEq] at h
      exact ⟨h.1, h.2.1, h.2.2.1⟩
  | _ => cases h

theorem Deed.Accepts.write? {p : Purpose} {a : Nat} {d : Deed} (h : d.Accepts p a) :
    ∃ performed, d.write? = some (p, a, performed, true) := by
  cases d with
  | wrote q b nonce cap ps performed answer =>
    cases answer with
    | ok x =>
      obtain ⟨rfl, rfl, hx⟩ := h
      exact ⟨performed, by rw [Deed.write?, hx]⟩
    | error e => cases h
  | _ => cases h

/-- **The statuses are not true in every run.**  The write was performed, the action is
`failed`, nothing says that its outcome is unknown, and the target was not read. -/
theorem status_untrue : ¬ ∀ (site : Site) (s : Estate), s.Fresh →
    ∀ d : Config Calls Exn Estate, (site.pipeline (Validated site)).Reaches
      (System.anyStep _) (Config.idle s) d → StatusTrue site d.shared.ledger := by
  intro hall
  have hplay : (((actingSite.pipeline (Validated actingSite)).play (Config.idle sampleEstate)
      (.start actingPerform :: List.replicate 21 (.op 0 lateAnswer))).map fun d =>
        ((d.shared.db.actions.get? 0).map fun r => (r.status, r.unknown),
          d.shared.deeds.filterMap (·.deed.write?))) =
      some (some (.failed, false), [(.write, 0, true, false)]) := by
    decide +kernel
  obtain ⟨d, hd, hends⟩ := Option.map_eq_some_iff.mp hplay
  obtain ⟨hrow, hdeeds⟩ := Prod.mk.inj hends
  obtain ⟨r, hr, hstatus⟩ := Option.map_eq_some_iff.mp hrow
  obtain ⟨hstatus, hunknown⟩ := Prod.mk.inj hstatus
  have htrue := hall actingSite sampleEstate sampleEstate_fresh d
    (System.play_reaches _ (actingPerform_starts 21 lateAnswer) hd)
  have hwrite : ∀ w, (∃ e ∈ d.shared.deeds, e.deed.write? = some w) ↔
      w = (.write, 0, true, false) := by
    intro w
    rw [← List.mem_filterMap, hdeeds, List.mem_singleton]
  rcases htrue.failed 0 r hr hstatus hunknown with hno | ⟨x, y, haccepts, -, hsub⟩
  · obtain ⟨e, he, hdeed⟩ := (hwrite _).mpr rfl
    exact hno ⟨e, he, Deed.performs_of_write? hdeed⟩
  · obtain ⟨performed, hdeed⟩ := haccepts.write?
    have hmem : x ∈ d.shared.deeds := hsub.subset (List.mem_cons_self ..)
    cases (hwrite _).mp ⟨x, hmem, hdeed⟩

end L1Agent
