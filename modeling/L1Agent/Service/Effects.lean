import L1Agent.Actions.Protocol
import L1Agent.Service.Calls
import L1Agent.Sop.Lifecycle

/-! # Which tables a transaction writes

`DbCall.writes` names the tables that each transaction may change.  A transaction leaves every
other table as it was (`DbCall.run_same`), so that an invariant about one table is a matter of
the few transactions that write it.

A row is changed by moves, one kind for each table: `ActionRow.Move`, `JobRow.Move`, `RunRow.Move`.
What a transaction does to a table is one lemma (`DbCall.run_actions`, `DbCall.run_jobs`,
`DbCall.run_runs`), and the invariants are about moves.
-/
namespace L1Agent
open Interleaving

/-- The tables that programs write. -/
inductive Table where
  | actions | incidents | runs | jobs | sopVersions | policy
  deriving DecidableEq

/-- The table has the same rows in both. -/
def Db.Same (db db' : Db) : Table → Prop
  | .actions => db'.actions = db.actions
  | .incidents => db'.incidents = db.incidents
  | .runs => db'.runs = db.runs
  | .jobs => db'.jobs = db.jobs
  | .sopVersions => db'.sopVersions = db.sopVersions
  | .policy => db'.policy = db.policy

theorem Db.Same.refl (db : Db) (x : Table) : db.Same db x := by
  cases x <;> rfl

/-- The tables that a transaction may change. -/
def DbCall.writes : DbCall → List Table
  | recordDecision .. | note .. | authoriseExecution .. => [.actions]
  | transition .. | decide .. => [.actions, .jobs]
  | ingest .. => [.incidents, .runs, .jobs]
  | claimJob _ | renewLease .. | finishJob .. | releaseJob .. => [.jobs]
  | parkJob .. | concludeRun .. => [.runs, .jobs]
  | recordMatch .. | recordAdvised .. | journalStep .. => [.runs]
  | createDraft .. | updateDraft .. | discardDraft .. | submitDraft .. | approveVersion ..
  | requestChanges .. | publishVersion .. | retireSop .. => [.sopVersions]
  | setPolicy _ => [.policy]
  | _ => []

theorem OnlySops.same {α : Type} {db db' : Db} {v : α} {x : Except Exn (α × Db)}
    (h : OnlySops db x) (hx : x = .ok (v, db')) {table : Table} (ht : table ∉ [Table.sopVersions]) :
    db.Same db' table := by
  obtain ⟨_, _, rfl⟩ := h v db' hx
  cases table with
  | sopVersions => simp at ht
  | _ => rfl

/-- **What a transaction does not write** it leaves as it was. -/
theorem DbCall.run_same {site : Site} {now pick : Nat} {c : DbCall} {db db' : Db} {v : c.Val}
    (h : c.run site now pick db = .ok (v, db')) {table : Table} (ht : table ∉ c.writes) :
    db.Same db' table := by
  cases c with
  | createDraft actor content => exact (createDraft_only _ actor pick content).same h ht
  | updateDraft actor id content => exact (updateDraft_only _ actor id content).same h ht
  | discardDraft actor id => exact (discardDraft_only actor id).same h ht
  | submitDraft actor id => exact (submitDraft_only _ _ actor id).same h ht
  | approveVersion actor id hash => exact (approveVersion_only actor id hash).same h ht
  | requestChanges actor id text => exact (requestChanges_only actor id text).same h ht
  | publishVersion actor id => exact (publishVersion_only _ actor id).same h ht
  | retireSop actor key => exact (retireSop_only actor key).same h ht
  | recordDecision d payload =>
    obtain ⟨_, _, _, -, -, -, rfl⟩ := recordDecision_ok h
    cases table <;> first | rfl | exact absurd (by simp [writes]) ht
  | note id event payload values =>
    obtain ⟨_, _, _, -, -, -, rfl⟩ := noteAction_ok h
    cases table <;> first | rfl | exact absurd (by simp [writes]) ht
  | authoriseExecution id localSwitch =>
    rcases authoriseExecution_ok h with ⟨rfl, -⟩ | ⟨_, _, _, -, -, -, -, -, rfl⟩
    · exact .refl _ table
    · cases table <;> first | rfl | exact absurd (by simp [writes]) ht
  | transition id fromStatuses toStatus event payload values wake =>
    rcases transitionAction_ok h with ⟨-, rfl, -⟩ | ⟨_, _, _, _, -, -, -, -, rfl⟩
    · exact .refl _ table
    · cases table <;> first | rfl | exact absurd (by simp [writes]) ht
  | decide id answer =>
    obtain ⟨_, _, _, _, -, -, -, -, rfl⟩ := decideAction_ok h
    cases table <;> first | rfl | exact absurd (by simp [writes]) ht
  | get id =>
    simp only [run, getAction] at h
    split at h <;> cases h
    exact .refl _ table
  | ingest actor source incident =>
    simp only [run, L1Agent.ingest] at h
    split at h <;> cases h
    · exact .refl _ table
    · cases table <;> first | rfl | exact absurd (by simp [writes]) ht
  | claimJob worker =>
    simp only [run, L1Agent.claimJob] at h
    split at h <;> cases h
    · exact .refl _ table
    · cases table <;> first | rfl | exact absurd (by simp [writes]) ht
  | loadRun runId =>
    simp only [run] at h
    cases hload : L1Agent.loadRun runId db with
    | error e =>
      rw [hload] at h
      cases h
    | ok r =>
      rw [hload] at h
      cases h
      exact .refl _ table
  | loadJournal runId =>
    simp only [run] at h
    cases hload : L1Agent.loadJournal runId db with
    | error e =>
      rw [hload] at h
      cases h
    | ok r =>
      rw [hload] at h
      cases h
      exact .refl _ table
  | _ =>
    cases h
    cases table <;> first | rfl | exact absurd (by simp [writes]) ht

/-- **What a step does to the rows**: it is a transaction that has committed, or it leaves them
as they were. -/
theorem Op.step_db {site : Site} {t : Nat} {o : Op} {ch : Choice} {s s' : Estate}
    {answer : Except Exn o.Val} (h : o.step site t ch s = some (answer, s')) :
    s'.db = s.db ∨ ∃ (c : DbCall) (v : c.Val), o = .db c ∧
      c.run site (s.now + ch.elapsed) ch.pick s.db = .ok (v, s'.db) := by
  obtain ⟨v, s₁, heffect, hcases⟩ := Op.step_cases h
  have heff : s₁.db = s.db ∨ ∃ (c : DbCall) (v : c.Val), o = .db c ∧
      c.run site (s.now + ch.elapsed) ch.pick s.db = .ok (v, s₁.db) := by
    cases o with
    | db c =>
      rcases Op.db_effect heffect with ⟨e, -, rfl⟩ | ⟨a, rows, hrun, -, rfl⟩
      · exact .inl rfl
      · refine .inr ⟨c, a, rfl, ?_⟩
        cases c.deed a <;> exact hrun
    | mint purpose row capabilityId digest =>
      simp only [Op.effect] at heffect
      split at heffect <;> cases heffect
      exact .inl rfl
    | write purpose action grant call =>
      simp only [Op.effect] at heffect
      split at heffect
      · cases heffect
        exact .inl rfl
      · split at heffect <;> cases heffect
        exact .inl rfl
    | callAdapter name parameters stepId attempt looking =>
      cases heffect
      cases looking <;> exact .inl rfl
    | _ =>
      cases heffect
      exact .inl rfl
  rcases hcases with ⟨-, rfl⟩ | ⟨e, -, rfl | rfl, -⟩
  · exact heff
  · exact heff
  · exact .inl rfl

/-- **A transaction that answers** has committed. -/
theorem Op.step_ok {site : Site} {t : Nat} {c : DbCall} {ch : Choice} {s s' : Estate} {v : c.Val}
    (h : (Op.db c).step site t ch s = some (.ok v, s')) :
    c.run site (s.now + ch.elapsed) ch.pick s.db = .ok (v, s'.db) := by
  obtain ⟨a, s₁, heffect, hcases⟩ := Op.step_cases h
  rcases hcases with ⟨rfl, rfl⟩ | ⟨e, herror, -⟩
  · rcases Op.db_effect heffect with ⟨e, herror, -⟩ | ⟨a, rows, hrun, hok, rfl⟩
    · cases herror
    · cases hok
      cases c.deed v <;> exact hrun
  · cases herror

/-- A reading of the clock. -/
theorem Op.step_utcnow {site : Site} {t now : Nat} {ch : Choice} {s s' : Estate}
    (h : Op.utcnow.step site t ch s = some (.ok now, s')) : now = s.now + ch.elapsed := by
  obtain ⟨a, s₁, heffect, hcases⟩ := Op.step_cases h
  cases heffect
  rcases hcases with ⟨hanswer, -⟩ | ⟨e, herror, -⟩
  · exact Except.ok.inj hanswer
  · cases herror

/-- Time passes before a step, and not during it. -/
theorem Op.step_now {site : Site} {t : Nat} {o : Op} {ch : Choice} {s s' : Estate}
    {answer : Except Exn o.Val} (h : o.step site t ch s = some (answer, s')) :
    s'.now = s.now + ch.elapsed := by
  obtain ⟨v, s₁, heffect, hcases⟩ := Op.step_cases h
  have hnow : s₁.now = s.now + ch.elapsed := by
    cases o with
    | db c =>
      rcases Op.db_effect heffect with ⟨e, -, rfl⟩ | ⟨a, rows, -, -, rfl⟩
      · rfl
      · cases c.deed a <;> rfl
    | mint purpose row capabilityId digest =>
      simp only [Op.effect] at heffect
      split at heffect <;> cases heffect
      rfl
    | write purpose action grant call =>
      simp only [Op.effect] at heffect
      split at heffect
      · cases heffect
        rfl
      · split at heffect <;> cases heffect
        rfl
    | callAdapter name parameters stepId attempt looking =>
      cases heffect
      cases looking <;> rfl
    | _ =>
      cases heffect
      rfl
  rcases hcases with ⟨-, rfl⟩ | ⟨e, -, rfl | rfl, -⟩
  · exact hnow
  · exact hnow
  · rfl

/-- The step takes effect. -/
def Choice.lands (ch : Choice) : Bool := ch.fault.isNone || ch.landed

/-- **A transaction that takes effect** has committed; one that does not leaves the rows. -/
theorem Op.step_lands {site : Site} {t : Nat} {c : DbCall} {ch : Choice} {s s' : Estate}
    {answer : Except Exn c.Val} (h : (Op.db c).step site t ch s = some (answer, s')) :
    (ch.lands = true → ∀ v rows, c.run site (s.now + ch.elapsed) ch.pick s.db = .ok (v, rows) →
      s'.db = rows) ∧ (ch.lands = false → s'.db = s.db) := by
  obtain ⟨⟨v, s₁⟩, heffect, hmatch⟩ := Option.map_eq_some_iff.mp h
  have hrows : ∀ v rows, c.run site (s.now + ch.elapsed) ch.pick s.db = .ok (v, rows) →
      s₁.db = rows := by
    intro v' rows hrun
    rcases Op.db_effect heffect with ⟨e, rfl, rfl⟩ | ⟨a, rows', hrun', -, rfl⟩
    · have heffect' := heffect
      simp only [Op.effect] at heffect'
      have hrun' : c.run site (s.later ch.elapsed).now ch.pick (s.later ch.elapsed).db =
          .ok (v', rows) := hrun
      rw [hrun'] at heffect'
      cases heffect'
    · have hsame := hrun'.symm.trans hrun
      cases hsame
      cases c.deed v' <;> rfl
  have hfailure : (Op.db c).failure ch = ch.fault := rfl
  rw [hfailure] at hmatch
  unfold Choice.lands
  cases hf : ch.fault with
  | none =>
    rw [hf] at hmatch
    cases hmatch
    exact ⟨fun _ => hrows, fun h => by cases h⟩
  | some e =>
    rw [hf] at hmatch
    cases hl : ch.landed with
    | true =>
      rw [hl] at hmatch
      cases hmatch
      exact ⟨fun _ => hrows, fun h => by cases h⟩
    | false =>
      rw [hl] at hmatch
      cases hmatch
      exact ⟨fun h => (by cases h), fun _ => rfl⟩

/-! ## What a transaction does to the actions -/

/-- **How a transaction changes an action**, at the instant `now`. -/
inductive ActionRow.Move (db : Db) (now : Nat) (r : ActionRow) : DbCall → ActionRow → Prop where
  | same (c : DbCall) : Move db now r c r
  | noted (event : String) (payload : List (String × Json)) (values : Values) :
      Move db now r (.note r.id event payload values) (r.with values)
  | moved (fromStatuses : List ActionStatus) (toStatus : ActionStatus) (event : String)
      (payload : List (String × Json)) (values : Values) (wake : Bool)
      (hfrom : r.status ∈ fromStatuses) :
      Move db now r (.transition r.id fromStatuses toStatus event payload values wake)
        (r.moved now toStatus values)
  | begun (localSwitch : Bool) (hs : r.status = .approved ∨ r.status = .allowed)
      (hvalid : r.validUntil.any (now < ·) = true) (hoff : dbSwitches db = []) :
      Move db now r (.authoriseExecution r.id localSwitch) (r.begun now)
  | answered (a : Answer) (hok : refuses now r a = none)
      (htime : r.expiresAt.all (· ≤ now) = false) :
      Move db now r (.decide r.id a)
        (r.answered now (now + minutes db.policy.rules.executeWithinMinutes) a)
  | expired (a : Answer) (hok : refuses now r a = none) :
      Move db now r (.decide r.id a) (r.expiredAt now)

theorem ActionRow.Move.subject_eq {db : Db} {now : Nat} {r r' : ActionRow} {c : DbCall}
    (h : r.Move db now c r') : r'.subject = r.subject := by
  cases h <;> rfl

theorem ActionRow.Move.id_eq {db : Db} {now : Nat} {r r' : ActionRow} {c : DbCall}
    (h : r.Move db now c r') : r'.id = r.id := by
  cases h <;> rfl

/-- The actions are the ones there were, each moved. -/
def ActionsMoved (db : Db) (now : Nat) (c : DbCall) (actions' : ActionTable) : Prop :=
  ∀ id, (∀ r, db.actions.get? id = some r →
      ∃ r', actions'.get? id = some r' ∧ r.Move db now c r') ∧
    (db.actions.get? id = none → actions'.get? id = none)

theorem ActionsMoved.refl (db : Db) (now : Nat) (c : DbCall) :
    ActionsMoved db now c db.actions := fun _ => ⟨fun r hr => ⟨r, hr, .same c⟩, id⟩

theorem actionsMoved_put {db : Db} {now id : Nat} {c : DbCall} {actions' : ActionTable}
    {r r' : ActionRow} (hr : db.actions.get? id = some r) (hput : db.actions.put r' = .ok actions')
    (hmove : r.Move db now c r') : ActionsMoved db now c actions' := by
  intro x
  have hid : r'.id = id := hmove.id_eq.trans (ActionTable.get?_id hr)
  have hold : db.actions.get? r'.id = some r := by
    rw [hid]
    exact hr
  rw [ActionTable.put_get? hput hold x, hid]
  by_cases hx : x = id
  · subst hx
    rw [if_pos rfl]
    refine ⟨fun y hy => ?_, fun hnone => ?_⟩
    · obtain rfl : r = y := Option.some_inj.mp (hr.symm.trans hy)
      exact ⟨r', rfl, hmove⟩
    · rw [hr] at hnone
      cases hnone
  · rw [if_neg hx]
    exact ⟨fun y hy => ⟨y, hy, .same c⟩, fun hnone => hnone⟩

section
variable {site : Site} {now pick : Nat} {c : DbCall} {db db' : Db} {v : c.Val}

/-- **What a transaction does to the actions**: it moves each, or a decision adds one. -/
theorem DbCall.run_actions (h : c.run site now pick db = .ok (v, db')) :
    ActionsMoved db now c db'.actions ∨ ∃ d payload run, c = .recordDecision d payload ∧
      db.runs.find? (·.id == d.runId) = some run ∧
      db.actions.add (d.toRow db.actions.rows.length run.incidentId) = .ok db'.actions := by
  have hquiet : Table.actions ∉ c.writes → ActionsMoved db now c db'.actions := by
    intro ht
    have hsame : db'.actions = db.actions := run_same h ht
    rw [hsame]
    exact .refl db now c
  cases c with
  | recordDecision d payload =>
    obtain ⟨run, _, _, hrun, hrow, hadd, rfl⟩ := recordDecision_ok h
    refine .inr ⟨d, payload, run, rfl, hrun, ?_⟩
    rw [← hrow]
    exact hadd
  | note id event payload values =>
    obtain ⟨r, _, _, hr, hput, -, rfl⟩ := noteAction_ok h
    have hid := ActionTable.get?_id hr
    subst hid
    exact .inl (actionsMoved_put hr hput (.noted event payload values))
  | transition id fromStatuses toStatus event payload values wake =>
    rcases transitionAction_ok h with ⟨-, rfl, -⟩ | ⟨r, _, _, hr, hfrom, hput, -, rfl⟩
    · exact .inl (.refl _ now _)
    · have hid := ActionTable.get?_id hr
      subst hid
      exact .inl (actionsMoved_put hr hput (.moved _ _ _ _ _ _ hfrom))
  | authoriseExecution id localSwitch =>
    rcases authoriseExecution_ok h with ⟨rfl, -⟩ | ⟨r, _, _, hr, hs, ⟨hvalid, hoff, -⟩, hput, -, rfl⟩
    · exact .inl (.refl _ now _)
    · have hid := ActionTable.get?_id hr
      subst hid
      exact .inl (actionsMoved_put hr hput (.begun localSwitch hs hvalid hoff))
  | decide id a =>
    obtain ⟨r, after, _, _, hr, hok, hafter, hput, rfl⟩ := decideAction_ok h
    have hid := ActionTable.get?_id hr
    subst hid
    rcases hafter with rfl | ⟨htime, rfl⟩
    · exact .inl (actionsMoved_put hr hput (.expired a hok))
    · exact .inl (actionsMoved_put hr hput (.answered a hok htime))
  | _ => exact .inl (hquiet (by simp [writes]))

end

/-! ## What a transaction does to the jobs -/

/-- The row once a worker has taken it. -/
def JobRow.taken (job : JobRow) (site : Site) (now : Nat) (worker : String) : JobRow :=
  { job with
    status := .running, attempts := job.attempts + 1
    lockedUntil := some (now + site.lease), lockedBy := worker }

/-- **How a transaction changes a job**, at the instant `now`. -/
inductive JobRow.Move (site : Site) (now : Nat) (job : JobRow) : DbCall → JobRow → Prop where
  | same (c : DbCall) : Move site now job c job
  /-- A decision wakes a run that is parked. -/
  | woken (c : DbCall) (hs : job.status = .waiting)
      (hc : Table.actions ∈ c.writes) : Move site now job c
      { job with status := .queued, availableAt := now, attempts := 0, lockedUntil := none }
  | claimed (worker : String) (hs : job.claimable now = true) : Move site now job (.claimJob worker)
      (job.taken site now worker)
  | renewed (worker : String) (hby : job.lockedBy = worker) :
      Move site now job (.renewLease job.id worker)
        { job with lockedUntil := some (now + site.lease) }
  | parked (held : ClaimedJob) (number reason : String) (hid : held.id = job.id) :
      Move site now job (.parkJob held number reason)
        { job with status := .waiting, lockedUntil := none, attempts := 0 }
  | concluded (held : ClaimedJob) (c : Conclusion) (status : JobStatus) (hid : held.id = job.id)
      (hstatus : status = .done ∨ status = .dead) :
      Move site now job (.concludeRun held c status) { job with status, lockedUntil := none }
  | finished (status : JobStatus) (hstatus : status = .done) :
      Move site now job (.finishJob job.id status) { job with status, lockedUntil := none }
  | released (held : ClaimedJob) (error : String) (hid : held.id = job.id) :
      Move site now job (.releaseJob held error)
        { job with
          status := .queued, availableAt := now + min 60 (2 ^ held.attempts) * 1000000
          lockedUntil := none, lastError := clipText 500 error }

theorem JobRow.Move.id_eq {site : Site} {now : Nat} {job job' : JobRow} {c : DbCall}
    (h : job.Move site now c job') : job'.id = job.id := by
  cases h <;> rfl

theorem JobRow.Move.runId_eq {site : Site} {now : Nat} {job job' : JobRow} {c : DbCall}
    (h : job.Move site now c job') : job'.runId = job.runId := by
  cases h <;> rfl

theorem JobRow.Move.maxAttempts_eq {site : Site} {now : Nat} {job job' : JobRow} {c : DbCall}
    (h : job.Move site now c job') : job'.maxAttempts = job.maxAttempts := by
  cases h <;> rfl

/-- The jobs are the ones there were, each moved. -/
def JobsMoved (site : Site) (now : Nat) (c : DbCall) (jobs jobs' : List JobRow) : Prop :=
  ∃ f : JobRow → JobRow, jobs' = jobs.map f ∧ ∀ job ∈ jobs, job.Move site now c (f job)

theorem JobsMoved.refl (site : Site) (now : Nat) (c : DbCall) (jobs : List JobRow) :
    JobsMoved site now c jobs jobs := ⟨id, by simp, fun job _ => .same c⟩

theorem jobsMoved_wakeRun {site : Site} {now runId : Nat} {c : DbCall} {jobs : List JobRow}
    (hc : Table.actions ∈ c.writes) : JobsMoved site now c jobs (wakeRun now runId jobs) := by
  refine ⟨_, rfl, fun job _ => ?_⟩
  by_cases hif : job.runId = runId ∧ job.status = .waiting
  · rw [if_pos hif]
    exact .woken c hif.2 hc
  · rw [if_neg hif]
    exact .same c

theorem jobsMoved_updateJob {site : Site} {now jobId : Nat} {c : DbCall} {f : JobRow → JobRow}
    {jobs : List JobRow} (h : ∀ job ∈ jobs, job.id = jobId → job.Move site now c (f job)) :
    JobsMoved site now c jobs (updateJob jobId f jobs) := by
  refine ⟨_, rfl, fun job hjob => ?_⟩
  by_cases hid : job.id = jobId
  · rw [if_pos hid]
    exact h job hjob hid
  · rw [if_neg hid]
    exact .same c

/-- A claim takes one job that can be claimed, or none. -/
theorem claimJob_ok {site : Site} {now : Nat} {worker : String} {db db' : Db}
    {held : Option ClaimedJob} (h : claimJob now site.lease worker db = .ok (held, db')) :
    (held = none ∧ db' = db) ∨ ∃ job ∈ db.jobs, job.claimable now = true ∧
      held = some ⟨job.id, job.runId, job.attempts + 1, job.maxAttempts⟩ ∧
      db' = { db with jobs := updateJob job.id (·.taken site now worker) db.jobs } := by
  unfold claimJob at h
  split at h
  · cases h
    exact .inl ⟨rfl, rfl⟩
  · rename_i job hjob
    cases h
    exact .inr ⟨job, List.mem_of_find?_eq_some hjob, by simpa using List.find?_some hjob, rfl, rfl⟩

/-- A row after an update. -/
theorem mem_updateJob {jobId : Nat} {f : JobRow → JobRow} {jobs : List JobRow} {job : JobRow}
    (h : job ∈ updateJob jobId f jobs) :
    ∃ old ∈ jobs, (old.id = jobId ∧ job = f old) ∨ (old.id ≠ jobId ∧ job = old) := by
  obtain ⟨old, hold, hmap⟩ := List.mem_map.mp h
  refine ⟨old, hold, ?_⟩
  by_cases hid : old.id = jobId
  · rw [if_pos hid] at hmap
    exact .inl ⟨hid, hmap.symm⟩
  · rw [if_neg hid] at hmap
    exact .inr ⟨hid, hmap.symm⟩

/-- The row that intake inserts. -/
def newJob (site : Site) (now : Nat) (db : Db) : JobRow where
  id := db.jobs.length
  runId := db.runs.length
  maxAttempts := site.maxAttempts
  availableAt := now

/-- The worker gives a job that it has finished no other status than these. -/
def DbCall.Ends : DbCall → Prop
  | concludeRun _ _ status => status = .done ∨ status = .dead
  | finishJob _ status => status = .done
  | _ => True

/-- **What a transaction does to the jobs**: it moves each, or intake adds one. -/
theorem DbCall.run_jobs {site : Site} {now pick : Nat} {c : DbCall} {db db' : Db} {v : c.Val}
    (hends : c.Ends) (hids : (db.jobs.map (·.id)).Nodup)
    (h : c.run site now pick db = .ok (v, db')) :
    JobsMoved site now c db.jobs db'.jobs ∨
      ((∃ actor source incident, c = .ingest actor source incident) ∧
        db'.jobs = db.jobs ++ [newJob site now db]) := by
  have hquiet : Table.jobs ∉ c.writes → JobsMoved site now c db.jobs db'.jobs := by
    intro ht
    have hsame : db'.jobs = db.jobs := run_same h ht
    rw [hsame]
    exact .refl site now c db.jobs
  cases c with
  | transition id fromStatuses toStatus event payload values wake =>
    rcases transitionAction_ok h with ⟨-, rfl, -⟩ | ⟨r, _, _, -, -, -, -, rfl⟩
    · exact .inl (.refl ..)
    · cases wake with
      | true => exact .inl (jobsMoved_wakeRun (by simp [writes]))
      | false => exact .inl (.refl ..)
  | decide id answer =>
    obtain ⟨_, _, _, _, -, -, -, -, rfl⟩ := decideAction_ok h
    exact .inl (jobsMoved_wakeRun (by simp [writes]))
  | ingest actor source incident =>
    simp only [run, L1Agent.ingest] at h
    split at h
    · cases h
      exact .inl (.refl ..)
    · cases h
      exact .inr ⟨⟨_, _, _, rfl⟩, rfl⟩
  | claimJob worker =>
    rcases claimJob_ok h with ⟨-, rfl⟩ | ⟨found, hfound, hs, -, rfl⟩
    · exact .inl (.refl ..)
    · refine .inl (jobsMoved_updateJob fun job hjob hid => ?_)
      obtain rfl := List.inj_on_of_nodup_map hids hjob hfound hid
      exact .claimed worker hs
  | renewLease jobId worker =>
    cases h
    refine .inl (jobsMoved_updateJob fun job _ hid => ?_)
    subst hid
    split
    · rename_i hby
      exact .renewed worker hby
    · exact .same _
  | parkJob held number reason =>
    cases h
    exact .inl (jobsMoved_updateJob fun job _ hid => .parked held number reason hid.symm)
  | concludeRun held c status =>
    cases h
    exact .inl (jobsMoved_updateJob fun job _ hid => .concluded held c status hid.symm hends)
  | finishJob jobId status =>
    cases h
    refine .inl (jobsMoved_updateJob fun job _ hid => ?_)
    subst hid
    exact .finished status hends
  | releaseJob held error =>
    cases h
    exact .inl (jobsMoved_updateJob fun job _ hid => .released held error hid.symm)
  | _ => exact .inl (hquiet (by simp [writes]))

/-! ## What a transaction does to the runs -/

/-- **How a transaction changes a run.** -/
inductive RunRow.Move (run : RunRow) : DbCall → RunRow → Prop where
  | kept (c : DbCall) (run' : RunRow) (hid : run'.id = run.id)
      (hincident : run'.incidentId = run.incidentId) (houtcome : run'.outcome = run.outcome) :
      Move run c run'
  /-- The first conclusion. -/
  | concluded (held : ClaimedJob) (conclusion : Conclusion) (status : JobStatus)
      (hid : run.id = held.runId) (hnone : run.outcome = none) :
      Move run (.concludeRun held conclusion status)
        { run with
          outcome := some conclusion.outcome, state := conclusion.outcome, sopId := conclusion.sopId }

theorem RunRow.Move.id_eq {run run' : RunRow} {c : DbCall} (h : run.Move c run') :
    run'.id = run.id := by
  cases h with
  | kept hid => assumption
  | concluded => rfl

theorem RunRow.Move.incidentId_eq {run run' : RunRow} {c : DbCall} (h : run.Move c run') :
    run'.incidentId = run.incidentId := by
  cases h with
  | kept => assumption
  | concluded => rfl

/-- An outcome stays. -/
theorem RunRow.Move.outcome_eq {run run' : RunRow} {c : DbCall} (h : run.Move c run') {o : String}
    (ho : run.outcome = some o) : run'.outcome = some o := by
  cases h with
  | kept _ _ _ _ houtcome => exact houtcome.trans ho
  | concluded _ _ _ _ hnone =>
    rw [hnone] at ho
    cases ho

/-- The runs are the ones there were, each moved. -/
def RunsMoved (c : DbCall) (runs runs' : List RunRow) : Prop :=
  ∃ f : RunRow → RunRow, runs' = runs.map f ∧ ∀ run ∈ runs, run.Move c (f run)

theorem runsMoved_updateRun {c : DbCall} {runId : Nat} {f : RunRow → RunRow} {runs : List RunRow}
    (h : ∀ run ∈ runs, run.id = runId → run.Move c (f run)) :
    RunsMoved c runs (updateRun runId f runs) := by
  refine ⟨_, rfl, fun run hrun => ?_⟩
  by_cases hid : run.id = runId
  · rw [if_pos hid]
    exact h run hrun hid
  · rw [if_neg hid]
    exact .kept c run rfl rfl rfl

section
variable {site : Site} {now pick : Nat} {c : DbCall} {db db' : Db} {v : c.Val}

/-- **What a transaction does to the runs**: it moves each, or intake adds one. -/
theorem DbCall.run_runs (h : c.run site now pick db = .ok (v, db')) :
    RunsMoved c db.runs db'.runs ∨ ∃ actor source incident, c = .ingest actor source incident := by
  have hquiet : Table.runs ∉ c.writes → RunsMoved c db.runs db'.runs := by
    intro ht
    have hsame : db'.runs = db.runs := run_same h ht
    rw [hsame]
    exact ⟨id, by simp, fun run _ => .kept c run rfl rfl rfl⟩
  cases c with
  | ingest actor source incident => exact .inr ⟨_, _, _, rfl⟩
  | parkJob held number reason =>
    cases h
    exact .inl (runsMoved_updateRun fun run _ _ => .kept _ _ rfl rfl rfl)
  | recordMatch | recordAdvised | journalStep =>
    cases h
    exact .inl (runsMoved_updateRun fun run _ _ => .kept _ _ rfl rfl rfl)
  | concludeRun held conclusion status =>
    cases h
    refine .inl (runsMoved_updateRun fun run _ hid => ?_)
    by_cases hnone : run.outcome = none
    · rw [if_pos (by rw [hnone]; rfl)]
      exact .concluded held conclusion status hid hnone
    · rw [if_neg (by simpa using hnone)]
      exact .kept _ _ rfl rfl rfl
  | _ => exact .inl (hquiet (by simp [writes]))

/-! ## What a transaction adds to the audit log -/

theorem sopEvent_ne {actor event : String} {v : SopVersion} {payload : List (String × Json)}
    (h : event ≠ concludedEvent) : (sopEvent actor event v payload).event ≠ concludedEvent := h

/-- A transaction of the store leaves an event of its own. -/
theorem DbCall.run_saved (h : c.run site now pick db = .ok (v, db')) (hc : Table.sopVersions ∈ c.writes) :
    ∃ rows event, db.Saved rows event db' ∧ event.event ≠ concludedEvent := by
  cases c with
  | createDraft =>
    obtain ⟨-, hsaved⟩ := createDraft_ok h
    exact ⟨_, _, hsaved, sopEvent_ne (by decide)⟩
  | updateDraft =>
    obtain ⟨_, -, -, -, -, -, hsaved⟩ := updateDraft_ok h
    exact ⟨_, _, hsaved, sopEvent_ne (by decide)⟩
  | discardDraft =>
    obtain ⟨_, -, -, -, hsaved⟩ := discardDraft_ok h
    exact ⟨_, _, hsaved, sopEvent_ne (by decide)⟩
  | submitDraft =>
    obtain ⟨_, _, -, -, -, -, -, -, -, hsaved⟩ := submitDraft_ok h
    exact ⟨_, _, hsaved, sopEvent_ne (by decide)⟩
  | approveVersion =>
    obtain ⟨_, _, -, -, -, -, -, -, hsaved⟩ := approveVersion_ok h
    exact ⟨_, _, hsaved, sopEvent_ne (by decide)⟩
  | requestChanges =>
    obtain ⟨_, _, -, -, -, -, hsaved⟩ := requestChanges_ok h
    exact ⟨_, _, hsaved, sopEvent_ne (by decide)⟩
  | publishVersion =>
    obtain ⟨_, _, -, -, -, -, -, hsaved⟩ := publishVersion_ok h
    exact ⟨_, _, hsaved, sopEvent_ne (by decide)⟩
  | retireSop =>
    obtain ⟨_, -, -, -, hsaved⟩ := retireSop_ok h
    refine ⟨_, _, hsaved, ?_⟩
    show "sop.retired" ≠ concludedEvent
    decide
  | _ => simp [writes] at hc

/-- The events that are added are no conclusions. -/
def Db.Logs (db db' : Db) : Prop :=
  ∃ es, db'.audit = db.audit ++ es ∧ ∀ e ∈ es, e.event ≠ concludedEvent

theorem Db.Logs.refl (db : Db) : db.Logs db := ⟨[], by simp, by simp⟩

theorem Db.Logs.one {e : AuditEvent} (h : db'.audit = db.audit ++ [e])
    (he : e.event ≠ concludedEvent) : db.Logs db' := by
  refine ⟨[e], h, fun e' he' => ?_⟩
  cases List.mem_singleton.mp he'
  exact he

/-- The texts that the attempts and the sweeper give their events are others. -/
def DbCall.Speaks : DbCall → Prop
  | transition _ _ _ event _ _ _ => event ≠ concludedEvent
  | note _ event _ _ => event ≠ concludedEvent
  | _ => True

theorem actionEvent_ne {actor event : String} {row : ActionRow} {payload : List (String × Json)}
    (h : event ≠ concludedEvent) : (actionEvent actor event row payload).event ≠ concludedEvent := h

theorem runEvent_ne {event : String} {runId : Nat} {payload : List (String × Json)}
    (h : event ≠ concludedEvent) : (runEvent event runId payload).event ≠ concludedEvent := h

theorem saveAction_logs {row : ActionRow} {e : AuditEvent} {α : Type} {f : Db → α × Db} {r : α}
    (h : (saveAction row e db).map f = .ok (r, db')) (hf : ∀ d, (f d).2.audit = d.audit)
    (he : e.event ≠ concludedEvent) : db.Logs db' := by
  obtain ⟨actions, -, hres⟩ := saveAction_map_ok h
  have haudit := hf { db with actions, audit := db.audit ++ [e] }
  rw [← hres] at haudit
  exact .one haudit he

/-- **Only a conclusion is logged as one.** -/
theorem DbCall.run_logs (hspeaks : c.Speaks) (h : c.run site now pick db = .ok (v, db'))
    (hc : ∀ held conclusion status, c ≠ .concludeRun held conclusion status) : db.Logs db' := by
  by_cases hsops : Table.sopVersions ∈ c.writes
  · obtain ⟨rows, e, ⟨t, -, rfl⟩, he⟩ := run_saved h hsops
    exact .one rfl he
  cases c with
  | concludeRun held conclusion status => exact absurd rfl (hc held conclusion status)
  | createDraft | updateDraft | discardDraft | submitDraft | approveVersion | requestChanges
  | publishVersion | retireSop => exact absurd (by simp [writes]) hsops
  | recordDecision d payload =>
    simp only [run, L1Agent.recordDecision] at h
    split at h
    · cases h
    · rename_i run hrun
      cases hadd : db.actions.add (d.toRow db.actions.rows.length run.incidentId) with
      | error e =>
        rw [hadd] at h
        cases h
      | ok actions =>
        rw [hadd] at h
        cases h
        exact .one rfl (actionEvent_ne (by decide))
  | transition id fromStatuses toStatus event payload values wake =>
    simp only [run, transitionAction] at h
    split at h
    · cases h
      exact .refl _
    · split at h
      · cases h
        exact .refl _
      · exact saveAction_logs h (fun d => by split <;> rfl) hspeaks
  | note id event payload values =>
    simp only [run, noteAction] at h
    split at h
    · cases h
    · exact saveAction_logs h (fun d => rfl) hspeaks
  | authoriseExecution id localSwitch =>
    simp only [run, L1Agent.authoriseExecution] at h
    generalize (dbSwitches db ++ if localSwitch then ["local"] else []) = on at h
    split at h
    · cases h
      exact .refl _
    · split at h
      · cases h
        exact .refl _
      · split at h
        · split at h
          · rename_i db'' hsave
            cases h
            obtain ⟨actions, -, rfl⟩ := saveAction_ok hsave
            exact .one rfl (actionEvent_ne (by decide))
          · cases h
            exact .refl _
        · cases h
          exact .refl _
  | decide id answer =>
    simp only [run, decideAction] at h
    split at h
    · cases h
    · split at h
      · cases h
      · refine saveAction_logs h (fun d => rfl) ?_
        show (if _ then "approval.expired" else "approval.decided") ≠ concludedEvent
        split <;> decide
  | get id =>
    simp only [run, getAction] at h
    split at h <;> cases h
    exact .refl _
  | ingest actor source incident =>
    simp only [run, L1Agent.ingest] at h
    split at h
    · cases h
      exact .refl _
    · cases h
      refine .one rfl ?_
      show "incident.received" ≠ concludedEvent
      decide
  | claimJob worker =>
    simp only [run, L1Agent.claimJob] at h
    split at h <;> cases h <;> exact ⟨[], by simp, by simp⟩
  | loadRun runId =>
    simp only [run] at h
    cases hload : L1Agent.loadRun runId db with
    | error e =>
      rw [hload] at h
      cases h
    | ok r =>
      rw [hload] at h
      cases h
      exact .refl _
  | loadJournal runId =>
    simp only [run] at h
    cases hload : L1Agent.loadJournal runId db with
    | error e =>
      rw [hload] at h
      cases h
    | ok r =>
      rw [hload] at h
      cases h
      exact .refl _
  | parkJob | recordMatch | recordAdvised =>
    cases h
    exact .one rfl (runEvent_ne (by decide))
  | journalStep runId o =>
    cases h
    cases o with
    | stepStarted | stepCompleted => exact .one rfl (runEvent_ne (by decide))
    | _ => exact ⟨[], rfl, by simp⟩
  | renewLease | finishJob | releaseJob | setPolicy | setGlobalSwitch | setUsers =>
    cases h
    exact ⟨[], by simp, by simp⟩
  | _ =>
    cases h
    exact .refl _

end

end L1Agent
