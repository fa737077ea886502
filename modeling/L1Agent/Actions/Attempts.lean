import L1Agent.Library.Interleaving
import L1Agent.Actions.TrueStatus
import L1Agent.Service.Events

/-! # An attempt beside the others

What an attempt reads of a row may be overtaken at once, but not arbitrarily: the rows go onward
(`Estate.Onward`).  `Clean` is a triple for a program that raises nothing but the suspension of
its run, when the database answers; the rules for the statements of `actions/store.py` follow.

No statement fails on its own account: an update passes the constraints of the table
(`ActionTable.put_total`), and leaves a row that is sound (`ActionRow.Sound.moved`).  That a step
of any coroutine keeps the rows sound and goes onward is `Op.Orderly.step`.
-/
namespace L1Agent
open Interleaving

/-! ## What the constraints let through -/

/-- **An update passes the constraints** if the new row passes the checks and is of the same step
and the same write. -/
theorem ActionTable.put_total {t : ActionTable} {row old : ActionRow} (hold : t.get? row.id = some old)
    (hstep : row.runId = old.runId ∧ row.stepId = old.stepId)
    (hwrite : row.executionStartedAt = old.executionStartedAt ∧ row.incidentId = old.incidentId ∧
      row.callDigest = old.callDigest) (hchecks : row.Checks) : ∃ t', t.put row = .ok t' := by
  let f : ActionRow → ActionRow := fun r => if r.id = row.id then row else r
  have hsame : ∀ r ∈ t.rows, f r = r ∨ (f r = row ∧ r = old) := by
    intro r hr
    by_cases hid : r.id = row.id
    · refine .inr ⟨if_pos hid, ?_⟩
      have hget := ActionTable.get?_of_mem hr
      rw [hid, hold] at hget
      exact (Option.some_inj.mp hget).symm
    · exact .inl (if_neg hid)
  have hkeys : ∀ r ∈ t.rows, ((f r).runId = r.runId ∧ (f r).stepId = r.stepId) ∧
      (f r).executionStartedAt = r.executionStartedAt ∧ (f r).incidentId = r.incidentId ∧
        (f r).callDigest = r.callDigest := by
    intro r hr
    rcases hsame r hr with heq | ⟨heq, rfl⟩
    · rw [heq]
      exact ⟨⟨rfl, rfl⟩, rfl, rfl, rfl⟩
    · rw [heq]
      exact ⟨hstep, hwrite⟩
  have hok : ActionConstraints (t.rows.map f) := by
    refine ⟨?_, fun x hx => ?_, ?_, ?_⟩
    · have hids : (t.rows.map f).map (·.id) = t.rows.map (·.id) := by
        rw [List.map_map]
        refine List.map_congr_left fun r hr => ?_
        show (if r.id = row.id then row else r).id = r.id
        by_cases hid : r.id = row.id
        · rw [if_pos hid, hid]
        · rw [if_neg hid]
      rw [hids, t.ok.numbered, List.length_map]
    · obtain ⟨r, hr, rfl⟩ := List.mem_map.mp hx
      rcases hsame r hr with heq | ⟨heq, -⟩
      · rw [heq]
        exact t.ok.checks r hr
      · rw [heq]
        exact hchecks
    · refine List.pairwise_map.mpr (t.ok.onePerStep.imp_of_mem fun {a b} ha hb hne h => hne ?_)
      obtain ⟨⟨hrun, hid⟩, -⟩ := hkeys a ha
      obtain ⟨⟨hrun', hid'⟩, -⟩ := hkeys b hb
      unfold ActionRow.SameStep at h ⊢
      rwa [hrun, hid, hrun', hid'] at h
    · refine List.pairwise_map.mpr (t.ok.oncePerIncident.imp_of_mem fun {a b} ha hb hne h => hne ?_)
      obtain ⟨-, hstart, hincident, hdigest⟩ := hkeys a ha
      obtain ⟨-, hstart', hincident', hdigest'⟩ := hkeys b hb
      unfold ActionRow.SameWrite at h ⊢
      rwa [hstart, hincident, hdigest, hstart', hincident', hdigest'] at h
  exact ⟨⟨_, hok⟩, dif_pos hok⟩

/-! ## The rows -/

/-- What the columns of a row say together. -/
structure ActionRow.Sound (r : ActionRow) : Prop where
  expires : r.status = .pending → r.expiresAt.isSome = true
  started : r.executionStartedAt.isSome = true → r.status.begun = true

theorem ActionRow.Sound.not_started {r : ActionRow} (h : r.Sound) (hs : r.status.begun = false) :
    r.executionStartedAt = none := by
  cases hstarted : r.executionStartedAt with
  | none => rfl
  | some x =>
    have hbegun := h.started (by rw [hstarted]; rfl)
    rw [hs] at hbegun
    cases hbegun

/-- A new row. -/
theorem Decision.toRow_sound {d : Decision} (h : d.status = .pending → d.expiresAt.isSome = true)
    (id incidentId : Nat) : (d.toRow id incidentId).Sound :=
  ⟨h, fun hs => nomatch hs⟩

/-- **A statement leaves the row sound.** -/
theorem ActionRow.Sound.moved {db : Db} {now : Nat} {c : DbCall} {r r' : ActionRow} (h : r.Sound)
    (hop : Op.OfService (.db c)) (hmove : r.Move db now c r') : r'.Sound := by
  have hchange := hop.change hmove
  cases hmove with
  | same => exact h
  | noted event payload values => exact ⟨h.expires, h.started⟩
  | moved fromStatuses toStatus event payload values wake hfrom =>
    have helse := hop.lands_elsewhere
    refine ⟨fun hs => ?_, fun hs => ?_⟩
    · have hto : toStatus = .pending := hs
      rw [hto] at helse
      exact absurd (by decide) helse
    · have hbegun := h.started hs
      rcases hchange.status with heq | hnext
      · rw [heq]
        exact hbegun
      · exact ActionStatus.next_begun hnext hbegun
  | begun => exact ⟨fun hs => (nomatch hs), fun _ => rfl⟩
  | answered a hok htime =>
    have hnone := h.not_started (by rw [refuses_pending hok]; rfl)
    refine ⟨fun hs => ?_, fun hs => ?_⟩
    · have hanswer : (if a.approve then ActionStatus.approved else .rejected) = .pending := hs
      split at hanswer <;> cases hanswer
    · have hstarted : r.executionStartedAt.isSome = true := hs
      rw [hnone] at hstarted
      cases hstarted
  | expired a hok =>
    have hnone := h.not_started (by rw [refuses_pending hok]; rfl)
    refine ⟨fun hs => (nomatch hs), fun hs => ?_⟩
    have hstarted : r.executionStartedAt.isSome = true := hs
    rw [hnone] at hstarted
    cases hstarted

/-- Every row is sound. -/
def Estate.RowsSound (s : Estate) : Prop := ∀ id r, s.db.actions.get? id = some r → r.Sound

/-- **What a state leads to**: the rows are later, and the runs are still there. -/
structure Estate.Onward (s s' : Estate) : Prop where
  rows : ∀ id r, s.db.actions.get? id = some r →
    ∃ r', s'.db.actions.get? id = some r' ∧ r.Later r'
  runs : ∀ run ∈ s.db.runs, ∃ run' ∈ s'.db.runs, run'.id = run.id

/-- The operations of a deployment, with what a decision says of its expiry. -/
def Op.Orderly (o : Op) : Prop :=
  o.OfService ∧ ∀ d payload, o = .db (.recordDecision d payload) → d.status = .pending →
    d.expiresAt.isSome = true

theorem Op.Orderly.of_ne {o : Op} (h : o.OfService)
    (hne : ∀ d payload, o ≠ .db (.recordDecision d payload)) : o.Orderly :=
  ⟨h, fun d payload ho => absurd ho (hne d payload)⟩

theorem Op.ofStages.orderly {o : Op} (h : o.ofStages) : o.Orderly := by
  refine .of_ne (.attempt h.attempt) ?_
  rintro d payload rfl
  exact h

section
variable {site : Site} {t : Nat} {o : Op} {ch : Choice} {s s' : Estate}

/-- **A step keeps the rows sound, and goes onward.** -/
theorem Op.Orderly.step (h : o.Orderly) {answer : Except Exn o.Val} (hs : s.RowsSound)
    (hstep : o.step site t ch s = some (answer, s')) : s'.RowsSound ∧ s.Onward s' := by
  rcases Op.step_db hstep with hsame | ⟨c, v, rfl, hrun⟩
  · refine ⟨fun id r hr => ?_, fun id r hr => ?_, fun run hrun => ?_⟩
    · rw [hsame] at hr
      exact hs id r hr
    · rw [hsame]
      exact ⟨r, hr, .refl r⟩
    · rw [hsame]
      exact ⟨run, hrun, rfl⟩
  · have hruns : ∀ run ∈ s.db.runs, ∃ run' ∈ s'.db.runs, run'.id = run.id := by
      intro run hmem
      rcases DbCall.run_runs hrun with ⟨f, hmoved, hf⟩ | ⟨actor, source, incident, rfl⟩
      · refine ⟨f run, ?_, (hf run hmem).id_eq⟩
        rw [hmoved]
        exact List.mem_map_of_mem hmem
      · simp only [DbCall.run, L1Agent.ingest] at hrun
        split at hrun
        · obtain ⟨-, hrows⟩ := Prod.mk.inj (Except.ok.inj hrun)
          rw [← hrows]
          exact ⟨run, hmem, rfl⟩
        · obtain ⟨-, hrows⟩ := Prod.mk.inj (Except.ok.inj hrun)
          rw [← hrows]
          exact ⟨run, List.mem_append_left _ hmem, rfl⟩
    rcases DbCall.run_actions hrun with hmoved | ⟨d, payload, run, rfl, -, hadd⟩
    · refine ⟨fun id r' hr' => ?_, fun id r hr => ?_, hruns⟩
      · cases hr : s.db.actions.get? id with
        | none =>
          rw [(hmoved id).2 hr] at hr'
          cases hr'
        | some r =>
          obtain ⟨x, hx, hmove⟩ := (hmoved id).1 r hr
          obtain rfl : r' = x := Option.some_inj.mp (hr'.symm.trans hx)
          exact (hs id r hr).moved h.1 hmove
      · obtain ⟨r', hr', hmove⟩ := (hmoved id).1 r hr
        exact ⟨r', hr', (h.1.change hmove).later⟩
    · have hget := ActionTable.add_get? hadd
      refine ⟨fun id r' hr' => ?_, fun id r hr => ?_, hruns⟩
      · rw [hget id] at hr'
        split at hr'
        · cases hr'
          exact Decision.toRow_sound (h.2 d payload rfl) _ _
        · exact hs id r' hr'
      · refine ⟨r, ?_, .refl r⟩
        rw [hget id, if_neg]
        · exact hr
        · intro hid
          have hlen : id = s.db.actions.rows.length := hid
          rw [hlen, ActionTable.get?_length] at hr
          cases hr

end

namespace ActionService
variable {site : Site}

/-- An attempt is orderly. -/
theorem orderly_perform (call : ActionCall) : (perform site call).Issues Op.Orderly := by
  have hC := Program.issues_compositional (E := Calls) (ε := Exn) Op.Orderly
  have hany : ∀ o : Op, o.ofStages → (ask o).Issues Op.Orderly := fun o ho =>
    issues_ask ho.orderly
  refine of_perform_decided hC hany call fun capability runId wanted =>
    of_decide_recording hC hany (fun d payload hstatus hexpires => ?_) call capability runId wanted
  refine issues_ask ⟨.attempt hstatus, ?_⟩
  rintro d' payload' ⟨⟩
  exact hexpires

end ActionService

/-- The coroutines of a deployment. -/
theorem service_orderly {site : Site} {p : Prog Unit} (h : Service site p) :
    p.Issues Op.Orderly := by
  have hC := Program.issues_compositional (E := Calls) (ε := Exn) Op.Orderly
  cases h with
  | work worker pollDue advisor =>
    refine RunService.of_workOnce hC (fun o ho => issues_ask (.of_ne (.worker ho) ?_))
      ActionService.orderly_perform (fun pollDue => ActionService.of_sweep hC
        (fun o ho _ => issues_ask (.of_ne (.sweep ho) ?_)) pollDue) worker pollDue advisor
    · rintro d payload rfl
      exact ho
    · rintro d payload rfl
      exact ho
  | beat worker jobId => exact issues_ask (.of_ne (.beat worker jobId rfl) (by rintro _ _ ⟨⟩))
  | decide id answer hvia =>
    refine hC.bind (issues_ask (.of_ne (.decide id answer hvia rfl) (by rintro _ _ ⟨⟩)))
      fun expired => ?_
    cases expired
    · exact hC.ret _
    · exact hC.raise _
  | outside o ho =>
    refine hC.bind (issues_ask (.of_ne (.outside ho) ?_)) fun _ => hC.ret _
    rintro d payload rfl
    cases ho

end L1Agent
