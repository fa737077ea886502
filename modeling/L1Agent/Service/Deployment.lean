import L1Agent.Actions.TrueStatus
import L1Agent.Service.Effects

/-! # A deployment

`Service` lists the coroutines of a deployment, which may be started in any number and at
any time, and may each be stopped for good at any point: workers with their heartbeats,
the approvers, and what people, pollers and administrators do.

`Op.OfService` lists the operations that they call (`service_issues`); an action is changed along
its machine only, whoever writes it (`Op.OfService.change`).  From what the parts are known to do, a
deployment keeps the protocol of the pipeline (`service_obeyed`), and so the ledger is regular in
every state and an action only moves on (`service_regular`, `service_later`).
-/
namespace L1Agent
open Interleaving

/-- What people, pollers and administrators do to the tables and the tickets. -/
def Op.fromOutside : Op → Bool
  | .db c => match c with
    | .ingest .. | .createDraft .. | .updateDraft .. | .discardDraft .. | .submitDraft ..
    | .approveVersion .. | .requestChanges .. | .publishVersion .. | .retireSop .. | .setPolicy _
    | .setGlobalSwitch _ | .setUsers _ => true
    | _ => false
  | .setSwitchFile _ | .ticketPatch .. => true
  | _ => false

/-- **The coroutines of a deployment.** -/
inductive Service (site : Site) : Prog Unit → Prop where
  /-- A turn of a worker. -/
  | work (worker : String) (pollDue advisor : Bool) :
      Service site (RunService.workOnce site worker pollDue advisor)
  /-- One beat of the heartbeat that runs beside it. -/
  | beat (worker : String) (jobId : Nat) : Service site (askDb (.renewLease jobId worker))
  /-- An answer in the product's own pages. -/
  | decide (id : Nat) (answer : Answer) (hvia : answer.via = channelUi)
      (hemail : answer.approverEmail = "") :
      Service site (ActionService.decideAction id answer)
  | outside (o : Op) (h : o.fromOutside = true) :
      Service site ((ask o).bind fun _ => .ret ())

/-- A deployment. -/
abbrev Site.service (site : Site) : System Calls Exn Estate := site.system (Service site)

/-- The operations of a deployment. -/
inductive Op.OfService (o : Op) : Prop where
  | attempt (h : o.ofAttempt)
  | sweep (h : o.ofSweep)
  | worker (h : o.ofWorker)
  | beat (worker : String) (jobId : Nat) (h : o = .db (.renewLease jobId worker))
  | decide (id : Nat) (answer : Answer) (hvia : answer.via = channelUi) (h : o = .db (.decide id answer))
  | outside (h : o.fromOutside = true)

/-- **What the coroutines of a deployment call.** -/
theorem service_issues {site : Site} {p : Prog Unit} (h : Service site p) :
    p.Issues Op.OfService := by
  have hC := Program.issues_compositional (E := Calls) (ε := Exn) Op.OfService
  cases h with
  | work worker pollDue advisor =>
    exact RunService.of_workOnce hC (fun o h => issues_ask (.worker h))
      (fun call => ActionService.of_perform hC (fun o h => issues_ask (.attempt h)) call)
      (fun pollDue => ActionService.of_sweep hC (fun o h _ => issues_ask (.sweep h)) pollDue)
      worker pollDue advisor
  | beat worker jobId => exact issues_ask (.beat worker jobId rfl)
  | decide id answer hvia =>
    refine hC.bind (issues_ask (.decide id answer hvia rfl)) fun expired => ?_
    cases expired
    · exact hC.ret _
    · exact hC.raise _
  | outside o ho => exact hC.bind (issues_ask (.outside ho)) fun _ => hC.ret _

/-- The worker gives a job that it has finished no status but done and dead. -/
theorem Op.OfService.ends {c : DbCall} (h : Op.OfService (.db c)) : c.Ends := by
  cases c with
  | concludeRun held conclusion status =>
    cases h with
    | worker h => exact h
    | attempt h | sweep h => exact h.elim
    | outside h => cases h
    | beat _ _ h | decide _ _ _ h => cases h
  | finishJob jobId status =>
    cases h with
    | worker h => exact h
    | attempt h | sweep h => exact h.elim
    | outside h => cases h
    | beat _ _ h | decide _ _ _ h => cases h
  | _ => trivial

/-- The attempts and the sweeper give their events other texts. -/
theorem Op.OfService.speaks {c : DbCall} (h : Op.OfService (.db c)) : c.Speaks := by
  cases c with
  | transition id fromStatuses toStatus event payload values wake =>
    cases h with
    | attempt h => exact ne_concluded_of_action h.2.2.1.1
    | sweep h => exact ne_concluded_of_action h.2.2.1.1
    | worker h => exact h.elim
    | outside h => cases h
    | beat _ _ h | decide _ _ _ h => cases h
  | note id event payload values =>
    cases h with
    | attempt h => exact ne_concluded_of_note h.1.1
    | sweep h | worker h => exact h.elim
    | outside h => cases h
    | beat _ _ h | decide _ _ _ h => cases h
  | _ => trivial

/-- A transition leads to none of the statuses before the write, nor to the write. -/
theorem Op.OfService.lands_elsewhere {id : Nat} {fromStatuses : List ActionStatus}
    {toStatus : ActionStatus} {event : String} {payload : List (String × Json)} {values : Values}
    {wake : Bool}
    (h : Op.OfService (.db (.transition id fromStatuses toStatus event payload values wake))) :
    toStatus ∉ [ActionStatus.pending, .approved, .allowed, .executing] := by
  cases h with
  | attempt h => exact h.2.1
  | sweep h => rcases h.2.1 with rfl | rfl <;> decide
  | worker h => exact h.elim
  | outside h => cases h
  | beat _ _ h | decide _ _ _ h => cases h

/-- An answer comes from the pages or from the change record. -/
theorem Op.OfService.via {id : Nat} {a : Answer} (h : Op.OfService (.db (.decide id a))) :
    a.via = channelUi ∨ a.via = channelServicenow := by
  cases h with
  | decide id' a' hvia heq =>
    cases heq
    exact .inl hvia
  | sweep h => exact .inr h
  | attempt h | worker h => exact h.elim
  | outside h => cases h
  | beat _ _ h => cases h

/-- What the service records is the status of its verdict. -/
theorem Op.OfService.decision_status {d : Decision} {payload : List (String × Json)}
    (h : Op.OfService (.db (.recordDecision d payload))) : d.status = verdictStatus d.verdict := by
  cases h with
  | attempt h => exact h.status
  | sweep h | worker h => exact h.elim
  | beat _ _ h => cases h
  | decide _ _ _ h => cases h
  | outside h => cases h

/-- **An action changes along its machine**, whoever writes it. -/
theorem Op.OfService.change {db : Db} {now : Nat} {c : DbCall} {r r' : ActionRow}
    (h : Op.OfService (.db c)) (hmove : r.Move db now c r') : r.Change r' := by
  cases hmove with
  | same => exact ⟨rfl, .inl rfl, fun _ => rfl⟩
  | noted event payload values =>
    cases h with
    | attempt h => exact r.with_change h.2.1
    | sweep h | worker h => exact h.elim
    | outside h => cases h
    | beat _ _ h | decide _ _ _ h => cases h
  | moved fromStatuses toStatus event payload values wake hfrom =>
    refine r.moved_change now values ?_
    cases h with
    | attempt h => exact h.1 _ hfrom
    | sweep h =>
      obtain ⟨rfl, hto, -⟩ := h
      rw [List.mem_singleton.mp hfrom]
      rcases hto with rfl | rfl <;> decide
    | worker h => exact h.elim
    | outside h => cases h
    | beat _ _ h | decide _ _ _ h => cases h
  | begun localSwitch hs => exact r.begun_change now hs
  | answered a hok htime => exact r.answered_change now _ a (refuses_pending hok)
  | expired a hok => exact r.expiredAt_change now (refuses_pending hok)

/-- What the operations of a deployment keep, every run of it keeps. -/
theorem service_keep {site : Site} {cond : site.service.Cond} {I : Estate → Prop}
    (h : ∀ t o ch s a s', Op.OfService o → cond t o ch s → Op.step site t o ch s = some (a, s') →
      I s → I s') {s : Estate} {d : Config Calls Exn Estate}
    (hr : site.service.Reaches cond (Config.idle s) d) (hs : I s) : I d.shared :=
  (System.reaches_issues site.service (fun _ hp => service_issues hp) h hr
    (Config.issues_idle _ s) hs).2

/-! ## A deployment keeps the protocol of the pipeline -/

section
variable {site : Site} {cond : site.service.Cond} {t : Nat}

/-- The program keeps the protocol, whatever its result. -/
abbrev Obeys {α : Type} (cond : site.service.Cond) (t : Nat) (p : Prog α) : Prop :=
  @Spec site (Service site) False cond t α (fun _ => True) p fun _ _ => True

theorem obeys_compositional :
    Program.Compositional (E := Calls) (ε := Exn) fun {_} p => Obeys cond t p where
  ret _ := Spec.ret fun _ _ => trivial
  raise _ := Spec.raise
  bind hp hf := Spec.bind hp hf
  attempt hp := Spec.post (Spec.attempt hp) fun _ _ _ => trivial
  tryCatch hp hf := Spec.tryCatch hp hf

theorem Obeys.ask {o : Op} (h : o.quiet = true) : Obeys cond t (L1Agent.ask o) :=
  Spec.quiet h (Steady.const True)

theorem Op.quiet_of_worker {o : Op} (h : o.ofWorker) : o.quiet = true := by
  cases o with
  | db c => cases c <;> first | rfl | exact h.elim
  | callAdapter name parameters stepId attempt looking =>
    obtain rfl : looking = none := h
    rfl
  | _ => first | rfl | exact h.elim

theorem RunService.obeys_workOnce (worker : String) (pollDue advisor : Bool) :
    Obeys cond t (workOnce site worker pollDue advisor) :=
  of_workOnce obeys_compositional (fun _ h => Obeys.ask (Op.quiet_of_worker h))
    (fun call => ActionService.spec_perform (fun h => h.elim) call fun h => h.elim)
    (fun pollDue => ActionService.spec_sweep (fun h => h.elim) pollDue) worker pollDue advisor

theorem Op.quiet_of_fromOutside {o : Op} (h : o.fromOutside = true) : o.quiet = true := by
  cases o with
  | db c => cases c <;> first | rfl | cases h
  | _ => first | rfl | cases h

/-- **A deployment keeps the protocol of the pipeline.** -/
theorem service_obeyed : (actionProtocol site False).Obeyed site.service cond := by
  intro p hp t s _
  have hall : ∀ {q : Prog Unit}, Obeys cond t q →
      q.Keeps site.service cond (actionProtocol site False) t (fun _ _ => True) s :=
    fun hq => (hq s trivial).mono fun _ _ _ => trivial
  cases hp with
  | work worker pollDue advisor => exact hall (RunService.obeys_workOnce worker pollDue advisor)
  | beat worker jobId => exact hall (Obeys.ask rfl)
  | decide id answer => exact hall (ActionService.spec_decideAction (fun h => h.elim) id answer)
  | outside o h =>
    exact hall (Spec.bind (Obeys.ask (Op.quiet_of_fromOutside h)) fun _ =>
      Spec.ret fun _ _ => trivial)

variable {s : Estate} {c d : Config Calls Exn Estate}

theorem service_regular (hs : s.Fresh) (hr : site.service.Reaches cond (Config.idle s) d) :
    d.shared.ledger.Regular site := regular_of_obeyed service_obeyed hs hr

theorem service_later (hs : s.Fresh) (hc : site.service.Reaches cond (Config.idle s) c)
    (hr : site.service.Reaches cond c d) (a : Nat) (r : ActionRow)
    (hget : c.shared.db.actions.get? a = some r) :
    ∃ r', d.shared.db.actions.get? a = some r' ∧ r.Later r' :=
  later_of_obeyed service_obeyed hs hc hr a r hget

end

/-! ## A deployment at work -/

/-- One call from outside. -/
def Op.alone (o : Op) : Prog Unit := (ask o).bind fun _ => .ret ()

/-- The deployment whose matcher finds the SOP that acts. -/
def servingSite : Site :=
  { actingSite with matcher := fun _ _ => (some 0, some 1, "the job failed"), withActions := rfl }

/-- The SOP that acts, published. -/
def actingVersion : SopVersion where
  id := 0
  sopKey := "restart-job"
  version := some 1
  status := .published
  content := ⟨actingSop, .obj []⟩
  contentHash := "restart-job"
  authorId := "user:a"
  approverId := some "user:b"

/-- One run that is queued, for a tenant that lets the SOP go this far by itself. -/
def servingEstate (autonomy : Autonomy) : Estate where
  db :=
    { incidents := [⟨0, "servicenow", "abc", sampleIncident⟩]
      runs := [{ id := 0, incidentId := 0, number := "INC1", state := "received" }]
      jobs := [{ id := 0, runId := 0, availableAt := 0 }]
      sopVersions := ⟨[actingVersion], by decide⟩
      policy :=
        { autonomy
          rules :=
            { sopAutonomy := [("restart-job", autonomy, .str "restart-job")]
              automatic := [{ capability := "JOB_RESTART", targets := ["billing"] }] } } }

/-- A turn of a worker. -/
def servingTurn : Prog Unit := RunService.workOnce servingSite "worker-1" false false

/-- The hash of the action that the run comes to. -/
def servingHash : String :=
  actionHash servingSite sampleIncident (asSop actingVersion.content (some 1) "restart-job")
    "JOB_RESTART" (.obj [("job", .str "billing")])

/-- What a person says of it in the product's own pages. -/
def servingAnswer (approve : Bool) : Answer :=
  { actor := "user:c", approve, seenHash := servingHash }

theorem servingTurn_starts (n : Nat) :
    servingSite.service.Starts (.start servingTurn :: List.replicate n (.op 0 smooth)) :=
  .start (Service.work _ _ _) .ops

/-- A schedule in which the second coroutine is the answer. -/
theorem servingAnswer_starts (approve : Bool) (n : Nat) :
    servingSite.service.Starts (.start (ActionService.decideAction 0 (servingAnswer approve)) ::
      List.replicate n (.op 1 smooth)) :=
  .start (Service.decide _ _ rfl rfl) .ops

end L1Agent
