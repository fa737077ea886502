import Mathlib.Data.Fintype.Defs
import L1Agent.Service.Deployment
import L1Agent.Service.Effects

/-! # Parking and waking

A run that waits for an approval is parked: its job is `waiting` until a decision wakes it.
Between the attempt's last look at the action and the transaction that parks the run lie
several others, and a decision that commits in between finds no waiting job to wake.

While nothing comes between them no run is left behind (`no_lost_wake`).
-/
namespace L1Agent
open Interleaving

/-- An action of the run waits for an approval. -/
def Db.Pending (db : Db) (runId : Nat) : Prop :=
  ∃ r ∈ db.actions.rows, r.runId = runId ∧ r.status = .pending

/-- **No run waits for a decision that has been made.** -/
def Db.NoLostWake (db : Db) : Prop :=
  ∀ job ∈ db.jobs, job.status = .waiting → db.Pending job.runId

instance (db : Db) (runId : Nat) : Decidable (db.Pending runId) :=
  inferInstanceAs (Decidable (∃ r ∈ db.actions.rows, _))

instance (db : Db) : Decidable db.NoLostWake :=
  inferInstanceAs (Decidable (∀ job ∈ db.jobs, _))

/-- A job of the run is parked. -/
def Db.Parked (db : Db) (runId : Nat) : Prop :=
  ∃ job ∈ db.jobs, job.runId = runId ∧ job.status = .waiting

instance (db : Db) (runId : Nat) : Decidable (db.Parked runId) :=
  inferInstanceAs (Decidable (∃ job ∈ db.jobs, _))

/-- **The step comes in time.**  A run is parked while an action of it still waits for its
approval; an attempt that ends a pending action itself, which wakes nobody, does so while the
run is not parked or has another action that waits. -/
def Op.InTime (db : Db) : Op → Prop
  | .db c => match c with
    | .parkJob job _ _ => ∀ row ∈ db.jobs, row.id = job.id → db.Pending row.runId
    | .transition id fromStatuses _ _ _ _ false =>
      ∀ r ∈ db.actions.rows, r.id = id → r.status = .pending → .pending ∈ fromStatuses →
        ¬ db.Parked r.runId ∨
          ∃ r' ∈ db.actions.rows, r'.id ≠ id ∧ r'.runId = r.runId ∧ r'.status = .pending
    | _ => True
  | _ => True

/-- A check of the condition. -/
def Op.inTime (db : Db) : Op → Bool
  | .db c => match c with
    | .parkJob job _ _ => decide (∀ row ∈ db.jobs, row.id = job.id → db.Pending row.runId)
    | .transition id fromStatuses _ _ _ _ false =>
      decide (∀ r ∈ db.actions.rows, r.id = id → r.status = .pending → .pending ∈ fromStatuses →
        ¬ db.Parked r.runId ∨
          ∃ r' ∈ db.actions.rows, r'.id ≠ id ∧ r'.runId = r.runId ∧ r'.status = .pending)
    | _ => true
  | _ => true

theorem Op.inTime_iff (db : Db) (o : Op) : o.inTime db = true ↔ o.InTime db := by
  cases o with
  | db c =>
    cases c with
    | parkJob => exact decide_eq_true_iff
    | transition _ _ _ _ _ _ wake =>
      cases wake with
      | false => exact decide_eq_true_iff
      | true => exact iff_of_true rfl trivial
    | _ => exact iff_of_true rfl trivial
  | _ => exact iff_of_true rfl trivial

instance (db : Db) (o : Op) : Decidable (o.InTime db) := decidable_of_iff _ (o.inTime_iff db)

section
variable {db : Db} {runId : Nat}

/-! ## What a transaction does to the actions that wait -/

theorem ActionTable.mem_put {t t' : ActionTable} {row x : ActionRow} (h : t.put row = .ok t')
    (hx : x ∈ t.rows) (hid : x.id ≠ row.id) : x ∈ t'.rows := by
  rw [ActionTable.ofRows_ok h]
  exact List.mem_map.mpr ⟨x, hx, if_neg hid⟩

theorem ActionTable.put_mem {t t' : ActionTable} {row old : ActionRow} (h : t.put row = .ok t')
    (hold : t.get? row.id = some old) : row ∈ t'.rows := by
  rw [ActionTable.ofRows_ok h]
  exact List.mem_map.mpr ⟨old, ActionTable.get?_mem hold, if_pos (ActionTable.get?_id hold)⟩

/-- A row that is inserted leaves the others. -/
theorem Db.Pending.add (h : db.Pending runId) {row : ActionRow} {actions : ActionTable}
    (hadd : db.actions.add row = .ok actions) : ({ db with actions } : Db).Pending runId := by
  obtain ⟨r, hr, hrun, hs⟩ := h
  refine ⟨r, ?_, hrun, hs⟩
  show r ∈ actions.rows
  rw [ActionTable.ofRows_ok hadd]
  exact List.mem_append_left _ hr

/-- An update leaves what waits, unless it is that row. -/
theorem Db.Pending.put (h : db.Pending runId) {r r' : ActionRow} {actions : ActionTable}
    (hr : db.actions.get? r.id = some r) (hput : db.actions.put r' = .ok actions)
    (hid : r'.id = r.id) (hrun : r'.runId = r.runId)
    (hkeep : r.runId = runId → r.status = .pending → r'.status = .pending ∨
      ∃ x ∈ db.actions.rows, x.id ≠ r.id ∧ x.runId = runId ∧ x.status = .pending) :
    ({ db with actions } : Db).Pending runId := by
  have hother : ∀ x ∈ db.actions.rows, x.id ≠ r.id → x.runId = runId → x.status = .pending →
      ({ db with actions } : Db).Pending runId := by
    intro x hx hne hxrun hxs
    exact ⟨x, ActionTable.mem_put hput hx (by rw [hid]; exact hne), hxrun, hxs⟩
  obtain ⟨x, hx, hxrun, hxs⟩ := h
  by_cases hne : x.id = r.id
  · obtain rfl : x = r := by
      have hget := ActionTable.get?_of_mem hx
      rw [hne, hr] at hget
      exact (Option.some_inj.mp hget).symm
    rcases hkeep hxrun hxs with hs | ⟨y, hy, hyne, hyrun, hys⟩
    · exact ⟨r', ActionTable.put_mem hput (by rw [hid]; exact hr), hrun.trans hxrun, hs⟩
    · exact hother y hy hyne hyrun hys
  · exact hother x hx hne hxrun hxs

/-! ## What a transaction does to the jobs that are parked -/

/-- The jobs that wait after a wake waited before, and are of other runs. -/
theorem waiting_of_wakeRun {now : Nat} {jobs : List JobRow} {job : JobRow}
    (h : job ∈ wakeRun now runId jobs) (hs : job.status = .waiting) :
    job ∈ jobs ∧ job.runId ≠ runId := by
  obtain ⟨old, hold, hmap⟩ := List.mem_map.mp h
  by_cases hif : old.runId = runId ∧ old.status = .waiting
  · rw [if_pos hif] at hmap
    subst hmap
    cases hs
  · rw [if_neg hif] at hmap
    subst hmap
    exact ⟨hold, fun hrun => hif ⟨hrun, hs⟩⟩

/-- The jobs that wait waited before, and what they wait for is still there. -/
theorem Db.NoLostWake.next (h : db.NoLostWake) {db' : Db}
    (hjobs : ∀ job ∈ db'.jobs, job.status = .waiting → job ∈ db.jobs ∧
      (db.Pending job.runId → db'.Pending job.runId)) : db'.NoLostWake := by
  intro job hjob hs
  obtain ⟨hold, hpending⟩ := hjobs job hjob hs
  exact hpending (h job hold hs)

/-- An update of a job that parks nothing. -/
theorem Db.NoLostWake.update (h : db.NoLostWake) {db' : Db} {jobId : Nat} {f : JobRow → JobRow}
    (hjobs : db'.jobs = updateJob jobId f db.jobs) (hactions : db'.actions = db.actions)
    (hf : ∀ old, (f old).status = .waiting → old.status = .waiting ∧ (f old).runId = old.runId) :
    db'.NoLostWake := by
  intro job hjob hs
  have hpending : ∀ runId, db.Pending runId → db'.Pending runId := by
    intro runId hp
    unfold Db.Pending
    rw [hactions]
    exact hp
  rw [hjobs] at hjob
  obtain ⟨old, hold, ⟨-, rfl⟩ | ⟨-, rfl⟩⟩ := mem_updateJob hjob
  · obtain ⟨hwait, hrun⟩ := hf old hs
    rw [hrun]
    exact hpending _ (h old hold hwait)
  · exact hpending _ (h job hold hs)

/-! ## The transactions -/

/-- A transition that comes in time. -/
theorem Db.NoLostWake.transition (h : db.NoLostWake) {now id : Nat}
    {fromStatuses : List ActionStatus} {toStatus : ActionStatus} {event : String}
    {payload : List (String × Json)} {values : Values} {wake : Bool} {db' : Db}
    {moved : Option ActionRow}
    (hin : (Op.db (.transition id fromStatuses toStatus event payload values wake)).InTime db)
    (hrun : transitionAction now id fromStatuses toStatus event payload values wake db =
      .ok (moved, db')) : db'.NoLostWake := by
  rcases transitionAction_ok hrun with ⟨-, rfl, -⟩ | ⟨r, actions, audit, hr, hfrom, hput, -, rfl⟩
  · exact h
  · have hid := ActionTable.get?_id hr
    subst hid
    refine h.next fun job hjob hs => ?_
    cases wake with
    | true =>
      obtain ⟨hold, hne⟩ := waiting_of_wakeRun hjob hs
      refine ⟨hold, fun hp => ?_⟩
      exact hp.put hr hput rfl rfl fun heq _ => absurd heq.symm hne
    | false =>
      refine ⟨hjob, fun hp => ?_⟩
      refine hp.put hr hput rfl rfl fun heq hpending => .inr ?_
      have hmem : ActionStatus.pending ∈ fromStatuses := by
        rw [← hpending]
        exact hfrom
      rcases hin r (ActionTable.get?_mem hr) rfl hpending hmem with hparked | ⟨x, hx, hne, hxrun, hxs⟩
      · exact absurd ⟨job, hjob, heq.symm, hs⟩ hparked
      · exact ⟨x, hx, hne, hxrun.trans heq, hxs⟩

theorem Db.NoLostWake.decide (h : db.NoLostWake) {now id : Nat} {a : Answer} {expired : Bool}
    {db' : Db} (hrun : decideAction now id a db = .ok (expired, db')) : db'.NoLostWake := by
  obtain ⟨r, after, actions, audit, hr, -, hafter, hput, rfl⟩ := decideAction_ok hrun
  have hid := ActionTable.get?_id hr
  subst hid
  have hsame : after.id = r.id ∧ after.runId = r.runId := by
    rcases hafter with rfl | ⟨-, rfl⟩
    · exact ⟨rfl, rfl⟩
    · exact ⟨rfl, rfl⟩
  refine h.next fun job hjob hs => ?_
  obtain ⟨hold, hne⟩ := waiting_of_wakeRun hjob hs
  refine ⟨hold, fun hp => ?_⟩
  exact hp.put hr hput hsame.1 hsame.2 fun heq _ => absurd heq.symm hne

/-- A run that is parked in time has an action that waits. -/
theorem Db.NoLostWake.park (h : db.NoLostWake) {job : ClaimedJob} {number reason : String}
    {db' : Db} {u : Unit} (hin : (Op.db (.parkJob job number reason)).InTime db)
    (hrun : parkJob job number reason db = .ok (u, db')) : db'.NoLostWake := by
  cases hrun
  intro row hrow hs
  obtain ⟨old, hold, ⟨hid, rfl⟩ | ⟨-, rfl⟩⟩ := mem_updateJob hrow
  · exact hin old hold hid
  · exact h row hold hs

end

/-- **A step that comes in time** loses no wake-up. -/
theorem noLostWake_step {site : Site} {t : Nat} {o : Op} {ch : Choice} {s s' : Estate}
    {answer : Except Exn o.Val} (hop : o.OfService) (hin : o.InTime s.db)
    (hstep : o.step site t ch s = some (answer, s')) (h : s.db.NoLostWake) :
    s'.db.NoLostWake := by
  rcases Op.step_db hstep with hsame | ⟨c, v, rfl, hrun⟩
  · rw [hsame]
    exact h
  generalize s'.db = db' at hrun
  have hquiet : Table.jobs ∉ c.writes → Table.actions ∉ c.writes → db'.NoLostWake := by
    intro hj ha
    have hjobs : db'.jobs = s.db.jobs := DbCall.run_same hrun hj
    have hactions : db'.actions = s.db.actions := DbCall.run_same hrun ha
    refine h.next fun job hjob _ => ?_
    rw [hjobs] at hjob
    refine ⟨hjob, fun hp => ?_⟩
    unfold Db.Pending
    rw [hactions]
    exact hp
  cases c with
  | transition => exact h.transition hin hrun
  | decide => exact h.decide hrun
  | parkJob => exact h.park hin hrun
  | recordDecision =>
    obtain ⟨_, _, _, -, -, hadd, rfl⟩ := recordDecision_ok hrun
    exact h.next fun job hjob _ => ⟨hjob, fun hp => hp.add hadd⟩
  | note =>
    obtain ⟨r, _, _, hr, hput, -, rfl⟩ := noteAction_ok hrun
    have hid := ActionTable.get?_id hr
    subst hid
    exact h.next fun job hjob _ => ⟨hjob, fun hp => hp.put hr hput rfl rfl fun _ hs => .inl hs⟩
  | authoriseExecution =>
    rcases authoriseExecution_ok hrun with ⟨rfl, -⟩ | ⟨r, _, _, hr, hs, -, hput, -, rfl⟩
    · exact h
    · have hid := ActionTable.get?_id hr
      subst hid
      refine h.next fun job hjob _ => ⟨hjob, fun hp => hp.put hr hput rfl rfl fun _ hp => ?_⟩
      rw [hp] at hs
      rcases hs with hs | hs <;> cases hs
  | ingest =>
    simp only [DbCall.run, L1Agent.ingest] at hrun
    split at hrun
    · cases hrun
      exact h
    · cases hrun
      intro job hjob hs
      rcases List.mem_append.mp hjob with hjob | hjob
      · exact h job hjob hs
      · cases List.mem_singleton.mp hjob
        cases hs
  | claimJob =>
    simp only [DbCall.run, L1Agent.claimJob] at hrun
    split at hrun
    · cases hrun
      exact h
    · cases hrun
      exact h.update rfl rfl fun old hs => by cases hs
  | renewLease =>
    cases hrun
    refine h.update rfl rfl fun old hs => ?_
    split at hs
    · rename_i hby
      rw [if_pos hby]
      exact ⟨hs, rfl⟩
    · rename_i hby
      rw [if_neg hby]
      exact ⟨hs, rfl⟩
  | concludeRun =>
    cases hrun
    refine h.update rfl rfl fun old hs => ?_
    rcases hop.ends with rfl | rfl <;> cases hs
  | finishJob =>
    cases hrun
    refine h.update rfl rfl fun old hs => ?_
    obtain rfl := hop.ends
    cases hs
  | releaseJob =>
    cases hrun
    exact h.update rfl rfl fun old hs => by cases hs
  | _ => exact hquiet (by simp [DbCall.writes]) (by simp [DbCall.writes])

/-- **No lost wake-up**, over every run of a deployment whose steps come in time. -/
theorem no_lost_wake (site : Site) (s : Estate) (hs : s.db.NoLostWake)
    (d : Config Calls Exn Estate)
    (hd : site.service.Reaches (fun _ o _ s => o.InTime s.db) (Config.idle s) d) :
    d.shared.db.NoLostWake :=
  service_keep (I := fun s => s.db.NoLostWake)
    (fun _ _ _ _ _ _ hop hin hstep h => noLostWake_step hop hin hstep h) hd hs

/-- A run that is parked while its action waits. -/
theorem no_lost_wake_sample : ∃ d : Config Calls Exn Estate,
    d.shared.db.jobs.map (·.status) = [.waiting] ∧ d.shared.db.NoLostWake := by
  have hplay : (servingSite.service.playIf (fun _ o _ s => decide (o.InTime s.db))
      (Config.idle (servingEstate .approval))
      (.start servingTurn :: List.replicate 27 (.op 0 smooth))).map (fun d =>
        d.shared.db.jobs.map (·.status)) = some [.waiting] := by
    decide +kernel
  obtain ⟨d, hd, hjobs⟩ := Option.map_eq_some_iff.mp hplay
  exact ⟨d, hjobs, no_lost_wake servingSite (servingEstate .approval) (by decide) d
    (System.playIf_reaches _ (fun _ _ _ _ h => of_decide_eq_true h) (servingTurn_starts 27) hd)⟩

/-- **A wake-up can be lost.**  The approval commits after the attempt has seen the action
pending and before the run is parked: the action is approved and the run waits. -/
theorem wake_lost : ¬ ∀ (site : Site) (s : Estate), s.db.NoLostWake →
    ∀ d : Config Calls Exn Estate,
      site.service.Reaches (System.anyStep _) (Config.idle s) d → d.shared.db.NoLostWake := by
  intro hall
  have hplay : (servingSite.service.play (Config.idle (servingEstate .approval))
      ((.start servingTurn :: List.replicate 26 (.op 0 smooth)) ++
        ((.start (ActionService.decideAction 0 (servingAnswer true)) ::
          List.replicate 1 (.op 1 smooth)) ++ List.replicate 1 (.op 0 smooth)))).map (fun d =>
        (d.shared.statuses, d.shared.db.jobs.map (·.status), decide d.shared.db.NoLostWake)) =
      some ([.approved], [.waiting], false) := by
    decide +kernel
  obtain ⟨d, hd, hends⟩ := Option.map_eq_some_iff.mp hplay
  have hlost : ¬ d.shared.db.NoLostWake := of_decide_eq_false (Prod.mk.inj (Prod.mk.inj hends).2).2
  refine hlost (hall servingSite (servingEstate .approval) (by decide) d
    (System.play_reaches _ ?_ hd))
  exact (servingTurn_starts 26).append
    ((servingAnswer_starts true 1).append .ops)

end L1Agent
