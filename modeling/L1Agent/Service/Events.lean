import L1Agent.Library.Past
import L1Agent.Service.Deployment

/-! # The history of a deployment

An event of a recorded run is one operation with the states around it.  Most statements are
about the transactions among them that have committed.

`Happens` is what is known of one event: the operation, and the states before and after.  The cases
of an event (`Happens.db_cases`), what it does to an action (`Happens.row_moves`) and what a new
action comes from (`Happens.row_added`) are what the statements about runs go by.
-/
namespace L1Agent
open Interleaving

/-- An event of a recorded run of a deployment. -/
abbrev Site.Event (site : Site) := System.Event site.service

namespace Site.Event
variable {site : Site} {ev : site.Event}

/-- The event is a step of the deployment. -/
def Happens (ev : site.Event) : Prop :=
  ev.op.step site ev.thread ev.choice ev.before = some (ev.answer, ev.after)

/-- When the event takes effect. -/
def time (ev : site.Event) : Nat := ev.before.now + (ev.choice : Choice).elapsed

/-- The event is a transaction that has committed, with this result. -/
def Commits (ev : site.Event) (c : DbCall) (v : c.Val) : Prop :=
  ev.op = .db c ∧ c.run site ev.time (ev.choice : Choice).pick ev.before.db = .ok (v, ev.after.db)

/-- An event is one transaction. -/
theorem Commits.call_eq {c c' : DbCall} {v : c.Val} {v' : c'.Val} (h : ev.Commits c v)
    (h' : ev.Commits c' v') : c' = c := by
  have heq := h.1.symm.trans h'.1
  exact (Op.db.inj heq).symm

/-- It has one result. -/
theorem Commits.val_eq {c : DbCall} {v v' : c.Val} (h : ev.Commits c v) (h' : ev.Commits c v') :
    v' = v := by
  have heq := h.2.symm.trans h'.2
  exact (Prod.mk.inj (Except.ok.inj heq)).1.symm

/-- **What an event does to the rows.** -/
theorem Happens.db_cases (h : ev.Happens) :
    ev.after.db = ev.before.db ∨ ∃ (c : DbCall) (v : c.Val), ev.Commits c v := by
  rcases Op.step_db h with hsame | ⟨c, v, hop, hrun⟩
  · exact .inl hsame
  · exact .inr ⟨c, v, hop, hrun⟩

/-- **What an event does to an action.** -/
theorem Happens.row_moves (h : ev.Happens) {id : Nat} {r r' : ActionRow}
    (hr : ev.before.db.actions.get? id = some r) (hr' : ev.after.db.actions.get? id = some r') :
    r' = r ∨ ∃ (c : DbCall) (v : c.Val), ev.Commits c v ∧ r.Move ev.before.db ev.time c r' := by
  rcases h.db_cases with hsame | ⟨c, v, hc⟩
  · rw [hsame, hr] at hr'
    exact .inl (Option.some_inj.mp hr').symm
  · rcases DbCall.run_actions hc.2 with hmoved | ⟨d, payload, run, -, -, hadd⟩
    · obtain ⟨x, hx, hmove⟩ := (hmoved id).1 r hr
      obtain rfl : r' = x := Option.some_inj.mp (hr'.symm.trans hx)
      exact .inr ⟨c, v, hc, hmove⟩
    · refine .inl ?_
      have hget := ActionTable.add_get? hadd id
      have hne : id ≠ (d.toRow ev.before.db.actions.rows.length run.incidentId).id := by
        intro hid
        have hlen : id = ev.before.db.actions.rows.length := hid
        rw [hlen, ActionTable.get?_length] at hr
        cases hr
      rw [if_neg hne, hr, hr'] at hget
      exact Option.some_inj.mp hget

/-- **A new action comes with a decision.** -/
theorem Happens.row_added (h : ev.Happens) {id : Nat} {r' : ActionRow}
    (hr : ev.before.db.actions.get? id = none) (hr' : ev.after.db.actions.get? id = some r') :
    ∃ d payload v incidentId, ev.Commits (.recordDecision d payload) v ∧
      r' = d.toRow id incidentId := by
  rcases h.db_cases with hsame | ⟨c, v, hc⟩
  · rw [hsame, hr] at hr'
    cases hr'
  · rcases DbCall.run_actions hc.2 with hmoved | ⟨d, payload, run, rfl, -, hadd⟩
    · rw [(hmoved id).2 hr] at hr'
      cases hr'
    · have hget := ActionTable.add_get? hadd id
      by_cases hid : id = (d.toRow ev.before.db.actions.rows.length run.incidentId).id
      · rw [if_pos hid, hr'] at hget
        refine ⟨d, payload, v, run.incidentId, hc, ?_⟩
        rw [Option.some_inj.mp hget]
        have hlen : id = ev.before.db.actions.rows.length := hid
        rw [hlen]
      · rw [if_neg hid, hr, hr'] at hget
        cases hget

end Site.Event

/-- What every event of a deployment keeps, every recorded run of it keeps. -/
theorem recorded_service_keep {site : Site} {cond : site.service.recorded.Cond}
    {I : Estate → List site.Event → Prop}
    (h : ∀ (ev : site.Event) (tr : List site.Event), ev.op.OfService → ev.Happens →
      cond ev.thread ev.op ev.choice (ev.before, tr) → I ev.before tr → I ev.after (tr ++ [ev]))
    {s : Estate} {d : Config Calls Exn (Estate × List site.Event)}
    (hd : site.service.recorded.Reaches cond (Config.idle (s, [])) d) (hs : I s []) :
    I d.shared.1 d.shared.2 :=
  System.recorded_keep (fun _ hp => service_issues hp)
    (fun ev tr hop hcond hrun => h ev tr hop hrun hcond) hd hs

/-! ## What a coroutine has done itself -/

theorem growing_true : Program.Growing fun _ : List Calls.Done => True := fun _ _ _ => trivial

/-- The rule for one operation. -/
theorem follows_ask {Ok : List Calls.Done → Op → Prop} {past : List Calls.Done} {α : Type} {o : Op}
    {f : o.Val → Prog α} {Q : List Calls.Done → Except Exn α → Prop} (hok : Ok past o)
    (herror : ∀ e, Q (past ++ [⟨o, .error e⟩]) (.error e))
    (h : ∀ v, (f v).Follows Ok (past ++ [⟨o, .ok v⟩]) Q) : ((ask o).bind f).Follows Ok past Q := by
  refine ⟨hok, fun answer => ?_⟩
  cases answer with
  | error e => exact herror e
  | ok v => exact h v

/-- Operations each of which may come at any time. -/
theorem abides_of_issues {Ok : List Calls.Done → Op → Prop} {α : Type}
    {K : List Calls.Done → Prop} (hK : Program.Growing K) {p : Prog α}
    (h : p.Issues fun o => ∀ past, Ok past o) : p.Abides Ok K :=
  h.abides hK fun past _ _ ho => ho past

/-- The coroutines of a deployment, by what a run and the sweeper do. -/
theorem service_executes {site : Site} {Ok : List Calls.Done → Op → Prop}
    (hworker : ∀ o : Op, o.ofWorker → ∀ past, Ok past o)
    (hexecute : ∀ job advisor, (RunService.execute site job advisor).Abides Ok fun _ => True)
    (hsweep : ∀ pollDue, (ActionService.sweep site pollDue).Abides Ok fun _ => True)
    (hbeat : ∀ worker jobId past, Ok past (.db (.renewLease jobId worker)))
    (hdecide : ∀ id a, a.via = channelUi → ∀ past, Ok past (.db (.decide id a)))
    (houtside : ∀ o : Op, o.fromOutside = true → ∀ past, Ok past o) {p : Prog Unit}
    (h : Service site p) : p.Follows Ok [] fun _ _ => True := by
  suffices habides : p.Abides Ok fun _ => True from habides [] trivial
  have hC := Program.abides_compositional (E := Calls) (ε := Exn) Ok fun _ => True
  have hany : ∀ {o : Op}, (∀ past, Ok past o) → (ask o).Abides Ok fun _ => True :=
    fun ho => abides_of_issues growing_true (issues_ask ho)
  cases h with
  | work worker pollDue advisor =>
    exact RunService.of_worker hC (fun o ho => hany (hworker o ho))
      (fun job => hexecute job advisor) hsweep worker pollDue
  | beat worker jobId => exact hany (hbeat worker jobId)
  | decide id answer hvia =>
    refine hC.bind (hany (hdecide id answer hvia)) fun expired => ?_
    cases expired
    · exact hC.ret _
    · exact hC.raise _
  | outside o ho => exact hC.bind (hany (houtside o ho)) fun _ => hC.ret _

/-- **The coroutines of a deployment**, put together from what their parts do. -/
theorem service_follows {site : Site} {Ok : List Calls.Done → Op → Prop}
    (hworker : ∀ o : Op, o.ofWorker → ∀ past, Ok past o)
    (hperform : ∀ call, (ActionService.perform site call).Abides Ok fun _ => True)
    (hsweep : ∀ pollDue, (ActionService.sweep site pollDue).Abides Ok fun _ => True)
    (hbeat : ∀ worker jobId past, Ok past (.db (.renewLease jobId worker)))
    (hdecide : ∀ id a, a.via = channelUi → ∀ past, Ok past (.db (.decide id a)))
    (houtside : ∀ o : Op, o.fromOutside = true → ∀ past, Ok past o) {p : Prog Unit}
    (h : Service site p) : p.Follows Ok [] fun _ _ => True :=
  service_executes hworker (fun job advisor => RunService.of_execute
    (Program.abides_compositional _ _) (fun o ho => abides_of_issues growing_true
      (issues_ask (hworker o ho))) hperform job advisor) hsweep hbeat hdecide houtside h

/-! ## The events of a run -/

section
variable {site : Site} {cond : site.service.Cond} {s : Estate}
  {d : Config Calls Exn (Estate × List site.Event)}

/-- The events of a recorded run are steps of the deployment that meet the run's condition. -/
theorem recorded_events
    (hd : site.service.recorded.Reaches (fun t o ch s => cond t o ch s.1) (Config.idle (s, [])) d) :
    ∀ ev ∈ d.shared.2, ev.op.OfService ∧ ev.Happens ∧
      cond ev.thread ev.op ev.choice ev.before := by
  refine recorded_service_keep (I := fun _ tr => ∀ ev ∈ tr, ev.op.OfService ∧
    Site.Event.Happens ev ∧ cond ev.thread ev.op ev.choice ev.before) ?_ hd (by simp)
  intro ev tr hop hev hcond h e he
  rcases List.mem_append.mp he with he | he
  · exact h e he
  · cases List.mem_singleton.mp he
    exact ⟨hop, hev, hcond⟩

/-- The subjects of the actions are still the same. -/
def Estate.SubjectsStay (s s' : Estate) : Prop :=
  ∀ id r, s.db.actions.get? id = some r →
    ∃ r', s'.db.actions.get? id = some r' ∧ r'.subject = r.subject

theorem Estate.SubjectsStay.refl (s : Estate) : s.SubjectsStay s := fun _ r hr => ⟨r, hr, rfl⟩

theorem Estate.SubjectsStay.trans {a b c : Estate} (h : a.SubjectsStay b)
    (h' : b.SubjectsStay c) : a.SubjectsStay c := by
  intro id r hr
  obtain ⟨r', hr', heq⟩ := h id r hr
  obtain ⟨r'', hr'', heq'⟩ := h' id r' hr'
  exact ⟨r'', hr'', heq'.trans heq⟩

/-- **What is settled when a row is inserted stays**, over one step. -/
theorem subjectsStay_step {ev : site.Event} (hev : ev.Happens) :
    ev.before.SubjectsStay ev.after := by
  rcases hev.db_cases with hsame | ⟨c, v, hc⟩
  · intro id r hr
    rw [hsame]
    exact ⟨r, hr, rfl⟩
  · rcases DbCall.run_actions hc.2 with hmoved | ⟨d, payload, run, -, -, hadd⟩
    · intro id r hr
      obtain ⟨r', hr', hmove⟩ := (hmoved id).1 r hr
      exact ⟨r', hr', hmove.subject_eq⟩
    · intro id r hr
      refine ⟨r, ?_, rfl⟩
      rw [ActionTable.add_get? hadd, if_neg]
      · exact hr
      · intro hid
        have hnone := ActionTable.get?_length ev.before.db.actions
        have hlen : id = ev.before.db.actions.rows.length := hid
        rw [hlen, hnone] at hr
        cases hr

end

end L1Agent
