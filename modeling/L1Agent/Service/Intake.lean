import L1Agent.Service.Events

/-! # One run for a ticket, and one conclusion

Intake gives a ticket one incident with one run and one job, however often and from wherever it
is delivered.  The first conclusion of a run stands, and its event is written in the same
transaction.

A *start* is a claim that leaves the worker an attempt: the claim counts it.  Between two
transactions that park a job it is started at most `maxAttempts` times.

`concluded_once` says all of it of every run.  Its parts have an invariant each: the numbering of
the rows (`Db.Lined`), the log of the conclusions (`Told`) and the count of the starts
(`StartsKept`).
-/
namespace L1Agent
open Interleaving

/-! ## What is claimed -/

/-- The run is about this ticket. -/
def Db.RunOf (db : Db) (run : RunRow) (source externalId : String) : Prop :=
  ∃ i ∈ db.incidents, i.id = run.incidentId ∧ i.source = source ∧ i.externalId = externalId

/-- The job is of a run about this ticket. -/
def Db.JobOf (db : Db) (job : JobRow) (source externalId : String) : Prop :=
  ∃ run ∈ db.runs, run.id = job.runId ∧ db.RunOf run source externalId

/-- **At most one incident, one live run and one job for a ticket.** -/
structure Db.OnePerTicket (db : Db) : Prop where
  incident : db.incidents.Pairwise fun i j => ¬ (i.source = j.source ∧ i.externalId = j.externalId)
  run : ∀ source externalId, db.runs.Pairwise fun a b =>
    ¬ (a.outcome = none ∧ b.outcome = none ∧ db.RunOf a source externalId ∧
      db.RunOf b source externalId)
  job : ∀ source externalId, db.jobs.Pairwise fun a b =>
    ¬ (db.JobOf a source externalId ∧ db.JobOf b source externalId)

/-- The conclusions of a run in the audit log. -/
def Db.conclusions (db : Db) (runId : Nat) : Nat :=
  db.audit.countP fun e => e.event == concludedEvent && e.correlationId == toString runId

namespace Site.Event
variable {site : Site}

/-- A worker takes the job and has an attempt left. -/
def Starts (ev : site.Event) (jobId : Nat) : Prop :=
  ∃ worker held, ev.Commits (.claimJob worker) (some held) ∧ held.id = jobId ∧
    held.attempts ≤ held.maxAttempts

/-- The job is parked. -/
def Parks (ev : site.Event) (jobId : Nat) : Prop :=
  ∃ held number reason, ev.Commits (.parkJob held number reason) () ∧ held.id = jobId

end Site.Event

/-- **Exactly one intake, and one conclusion.**  The run goes from `s` on to `s'`, with the
history `tr`. -/
structure ConcludedOnce (site : Site) (s s' : Db) (tr : List site.Event) : Prop where
  ticket : s'.OnePerTicket
  /-- An outcome stays. -/
  outcome : ∀ run ∈ s.runs, ∀ o, run.outcome = some o →
    ∀ run' ∈ s'.runs, run'.id = run.id → run'.outcome = some o
  /-- A run stays, and there is one with its id. -/
  run : ∀ run ∈ s.runs, ∃ run' ∈ s'.runs, run'.id = run.id
  oneRun : s'.runs.Pairwise fun a b => a.id ≠ b.id
  concluded : ∀ run ∈ s'.runs, run.outcome.isSome = true → s'.conclusions run.id = 1
  /-- Between two parks a job is started at most so often. -/
  starts : ∀ job ∈ s'.jobs, ∀ pre mid post, tr = pre ++ mid ++ post →
    (∀ e ∈ mid, ¬ e.Parks job.id) → ∀ starts : List site.Event, starts.Sublist mid →
      (∀ e ∈ starts, e.Starts job.id) → starts.length ≤ job.maxAttempts

/-! ## The rows of a ticket -/

/-- **Intake numbers the rows of its tables alike**, and records a ticket once. -/
structure Db.Lined (db : Db) : Prop where
  incidents : db.incidents.map (·.id) = List.range db.incidents.length
  runs : db.runs.map (·.id) = List.range db.incidents.length
  runIncidents : db.runs.map (·.incidentId) = List.range db.incidents.length
  jobs : db.jobs.map (·.id) = List.range db.incidents.length
  jobRuns : db.jobs.map (·.runId) = List.range db.incidents.length
  keys : db.incidents.Pairwise fun i j => ¬ (i.source = j.source ∧ i.externalId = j.externalId)

namespace Db
variable {db db' : Db}

theorem Lined.jobIds (h : db.Lined) : (db.jobs.map (·.id)).Nodup := by
  rw [h.jobs]
  exact List.nodup_range

theorem Lined.runIds (h : db.Lined) : (db.runs.map (·.id)).Nodup := by
  rw [h.runs]
  exact List.nodup_range

theorem Lined.onePerTicket (h : db.Lined) : db.OnePerTicket := by
  have hincident : ∀ {source externalId : String} {i j : IncidentRow}, i ∈ db.incidents →
      j ∈ db.incidents → i.source = source ∧ i.externalId = externalId →
      j.source = source ∧ j.externalId = externalId → i = j := by
    intro source externalId i j hi hj hki hkj
    exact Ledger.pairwise_unique (P := fun i : IncidentRow => i.source = source ∧
      i.externalId = externalId) (h.keys.imp fun hne hx hy => hne ⟨hx.1.trans hy.1.symm,
        hx.2.trans hy.2.symm⟩) hi hj hki hkj
  -- Two runs about one ticket are of one incident.
  have hsame : ∀ {source externalId : String} {a b : RunRow}, db.RunOf a source externalId →
      db.RunOf b source externalId → a.incidentId = b.incidentId := by
    rintro source externalId a b ⟨i, hi, hid, hki⟩ ⟨j, hj, hjd, hkj⟩
    rw [← hid, ← hjd, hincident hi hj hki hkj]
  have hruns : (db.runs.map (·.incidentId)).Nodup := by
    rw [h.runIncidents]
    exact List.nodup_range
  have hjobs : (db.jobs.map (·.runId)).Nodup := by
    rw [h.jobRuns]
    exact List.nodup_range
  refine ⟨h.keys, fun source externalId => ?_, fun source externalId => ?_⟩
  · refine (List.pairwise_map.mp hruns).imp fun {a b} hne hboth => hne ?_
    exact hsame hboth.2.2.1 hboth.2.2.2
  · refine (List.pairwise_map.mp hjobs).imp fun {a b} hne hboth => hne ?_
    obtain ⟨⟨run, hrun, hid, hof⟩, run', hrun', hid', hof'⟩ := hboth
    rw [← hid, ← hid', List.inj_on_of_nodup_map hruns hrun hrun' (hsame hof hof')]

theorem map_of_runsMoved {c : DbCall} {runs runs' : List RunRow} (h : RunsMoved c runs runs') :
    runs'.map (·.id) = runs.map (·.id) ∧ runs'.map (·.incidentId) = runs.map (·.incidentId) := by
  obtain ⟨f, rfl, hf⟩ := h
  rw [List.map_map, List.map_map]
  exact ⟨List.map_congr_left fun run hrun => (hf run hrun).id_eq,
    List.map_congr_left fun run hrun => (hf run hrun).incidentId_eq⟩

theorem map_of_jobsMoved {site : Site} {now : Nat} {c : DbCall} {jobs jobs' : List JobRow}
    (h : JobsMoved site now c jobs jobs') :
    jobs'.map (·.id) = jobs.map (·.id) ∧ jobs'.map (·.runId) = jobs.map (·.runId) := by
  obtain ⟨f, rfl, hf⟩ := h
  rw [List.map_map, List.map_map]
  exact ⟨List.map_congr_left fun job hjob => (hf job hjob).id_eq,
    List.map_congr_left fun job hjob => (hf job hjob).runId_eq⟩

/-- The transactions that move runs and jobs keep the numbering. -/
theorem Lined.moved (h : db.Lined) {site : Site} {now : Nat} {c : DbCall}
    (hincidents : db'.incidents = db.incidents) (hruns : RunsMoved c db.runs db'.runs)
    (hjobs : JobsMoved site now c db.jobs db'.jobs) : db'.Lined := by
  obtain ⟨hr, hri⟩ := map_of_runsMoved hruns
  obtain ⟨hj, hjr⟩ := map_of_jobsMoved hjobs
  constructor
  · rw [hincidents]
    exact h.incidents
  · rw [hr, hincidents]
    exact h.runs
  · rw [hri, hincidents]
    exact h.runIncidents
  · rw [hj, hincidents]
    exact h.jobs
  · rw [hjr, hincidents]
    exact h.jobRuns
  · rw [hincidents]
    exact h.keys

/-- A ticket that is delivered again adds nothing; a new one adds one row to each table. -/
theorem ingest_ok {now maxAttempts : Nat} {actor source digest : String} {incident : Incident}
    {v : Option Nat} (h : ingest now maxAttempts actor source incident digest db = .ok (v, db')) :
    db' = db ∨ ((∀ i ∈ db.incidents, ¬ (i.source = source ∧ i.externalId = incident.sysId)) ∧
      db'.incidents = db.incidents ++ [⟨db.incidents.length, source, incident.sysId, incident⟩] ∧
      db'.runs = db.runs ++ [{ id := db.runs.length, incidentId := db.incidents.length
                               number := incident.number, state := "received" }] ∧
      db'.jobs = db.jobs ++ [{ id := db.jobs.length, runId := db.runs.length, maxAttempts
                               availableAt := now }]) := by
  unfold ingest at h
  split at h
  · cases h
    exact .inl rfl
  · rename_i hnew
    cases h
    refine .inr ⟨fun i hi hkey => hnew ?_, rfl, rfl, rfl⟩
    refine List.any_eq_true.mpr ⟨i, hi, ?_⟩
    simpa using hkey

/-- A new ticket keeps the numbering. -/
theorem Lined.ingested (h : db.Lined) {now maxAttempts : Nat} {actor source digest : String}
    {incident : Incident} {v : Option Nat}
    (hrun : ingest now maxAttempts actor source incident digest db = .ok (v, db')) :
    db'.Lined := by
  rcases ingest_ok hrun with rfl | ⟨hnew, hincidents, hruns, hjobs⟩
  · exact h
  · have hlen : db'.incidents.length = db.incidents.length + 1 := by
      rw [hincidents, List.length_append, List.length_singleton]
    have hrunsLength : db.runs.length = db.incidents.length := by
      have heq := congrArg List.length h.runs
      simpa using heq
    have hjobsLength : db.jobs.length = db.incidents.length := by
      have heq := congrArg List.length h.jobs
      simpa using heq
    constructor
    · rw [hlen, hincidents, List.map_append, h.incidents, List.range_succ]
      rfl
    · rw [hlen, hruns, List.map_append, h.runs, List.range_succ, ← hrunsLength]
      rfl
    · rw [hlen, hruns, List.map_append, h.runIncidents, List.range_succ]
      rfl
    · rw [hlen, hjobs, List.map_append, h.jobs, List.range_succ, ← hjobsLength]
      rfl
    · rw [hlen, hjobs, List.map_append, h.jobRuns, List.range_succ, ← hrunsLength]
      rfl
    · rw [hincidents]
      refine List.pairwise_append.mpr ⟨h.keys, List.pairwise_singleton _ _, fun i hi j hj hkey => ?_⟩
      cases List.mem_singleton.mp hj
      exact hnew i hi hkey

/-- **Every transaction keeps the numbering.** -/
theorem Lined.next (h : db.Lined) {site : Site} {now pick : Nat} {c : DbCall} {v : c.Val}
    (hends : c.Ends) (hrun : c.run site now pick db = .ok (v, db')) : db'.Lined := by
  have hmoved : Table.incidents ∉ c.writes →
      (∀ actor source incident, c ≠ .ingest actor source incident) → db'.Lined := by
    intro ht hne
    rcases DbCall.run_runs hrun with hruns | ⟨_, _, _, heq⟩
    · rcases DbCall.run_jobs hends h.jobIds hrun with hjobs | ⟨⟨_, _, _, heq⟩, -⟩
      · exact h.moved (DbCall.run_same hrun ht) hruns hjobs
      · exact absurd heq (hne _ _ _)
    · exact absurd heq (hne _ _ _)
  cases c with
  | ingest actor source incident => exact h.ingested hrun
  | _ => exact hmoved (by simp [DbCall.writes]) (fun _ _ _ heq => by cases heq)

/-! ## One conclusion -/

/-- The run has an outcome. -/
def Concluded (db : Db) (runId : Nat) : Prop :=
  ∃ run ∈ db.runs, run.id = runId ∧ run.outcome.isSome = true

/-- **A run that has an outcome has one conclusion in the log, and no other has any.** -/
structure Told (db : Db) : Prop where
  once : ∀ runId, db.Concluded runId → db.conclusions runId = 1
  never : ∀ runId, ¬ db.Concluded runId → db.conclusions runId = 0

theorem Logs.conclusions (h : db.Logs db') (runId : Nat) :
    db'.conclusions runId = db.conclusions runId := by
  obtain ⟨es, haudit, hes⟩ := h
  have hnone : es.countP (fun e => e.event == concludedEvent &&
      e.correlationId == toString runId) = 0 :=
    List.countP_eq_zero.mpr fun e he => by simp [hes e he]
  unfold Db.conclusions
  rw [haudit, List.countP_append, hnone]
  rfl

/-- What leaves the outcomes and logs no conclusion. -/
theorem Told.next (h : db.Told) (hlogs : db.Logs db')
    (hsame : ∀ runId, db'.Concluded runId ↔ db.Concluded runId) : db'.Told := by
  refine ⟨fun runId hc => ?_, fun runId hc => ?_⟩
  · rw [hlogs.conclusions]
    exact h.once runId ((hsame runId).mp hc)
  · rw [hlogs.conclusions]
    exact h.never runId fun hold => hc ((hsame runId).mpr hold)

/-- The numbers of two runs have two texts. -/
theorem toString_inj {m n : Nat} (h : toString m = toString n) : m = n := by
  rw [Nat.toString_eq_ofList_toDigits, Nat.toString_eq_ofList_toDigits] at h
  have hdigits : Nat.toDigits 10 m = Nat.toDigits 10 n := String.ofList_injective h
  rw [← @Nat.ofDigitChars_toDigits 10 m (by decide) (by decide), hdigits,
    Nat.ofDigitChars_toDigits (by decide) (by decide)]

/-- One more conclusion is logged. -/
theorem conclusions_snoc {held : Nat} {payload : List (String × Json)}
    (h : db'.audit = db.audit ++ [runEvent concludedEvent held payload]) (runId : Nat) :
    db'.conclusions runId = db.conclusions runId + if runId = held then 1 else 0 := by
  unfold Db.conclusions
  rw [h, List.countP_append, List.countP_singleton]
  by_cases hid : runId = held
  · subst hid
    simp [runEvent]
  · have hne : (toString held == toString runId) = false := by
      rw [beq_eq_false_iff_ne]
      exact fun htext => hid (toString_inj htext).symm
    simp only [runEvent, hne, Bool.and_false, Bool.false_eq_true, if_false, hid]

/-- The outcome of a conclusion. -/
def concludedRow (c : Conclusion) (run : RunRow) : RunRow :=
  if run.outcome.isNone then
    { run with outcome := some c.outcome, state := c.outcome, sopId := c.sopId }
  else run

/-- The run had no outcome and has one now, with an event; or nothing is said of it. -/
theorem concludeRun_ok {held : ClaimedJob} {c : Conclusion} {status : JobStatus} {u : Unit}
    (h : concludeRun held c status db = .ok (u, db')) :
    db'.runs = updateRun held.runId (concludedRow c) db.runs ∧
      (((∃ run ∈ db.runs, run.id = held.runId ∧ run.outcome = none) ∧
        ∃ payload, db'.audit = db.audit ++ [runEvent concludedEvent held.runId payload]) ∨
      ((∀ run ∈ db.runs, run.id = held.runId → run.outcome.isSome = true) ∧
        db'.audit = db.audit)) := by
  by_cases hfirst : (db.runs.any fun run => run.id == held.runId && run.outcome.isNone) = true
  · obtain ⟨run, hmem, hkey⟩ := List.any_eq_true.mp hfirst
    simp only [Bool.and_eq_true, beq_iff_eq, Option.isNone_iff_eq_none] at hkey
    simp only [concludeRun, hfirst, if_true] at h
    cases h
    exact ⟨rfl, .inl ⟨⟨run, hmem, hkey⟩, _, rfl⟩⟩
  · have hnone : ∀ run ∈ db.runs, run.id = held.runId → run.outcome.isSome = true := by
      intro run hrun hid
      by_contra hsome
      refine hfirst (List.any_eq_true.mpr ⟨run, hrun, ?_⟩)
      simp only [Bool.and_eq_true, beq_iff_eq, Option.isNone_iff_eq_none]
      exact ⟨hid, by simpa using hsome⟩
    simp only [concludeRun, Bool.not_eq_true] at h hfirst
    rw [hfirst] at h
    cases h
    exact ⟨rfl, .inr ⟨hnone, rfl⟩⟩

theorem concluded_update {runId held : Nat} {c : Conclusion} {runs : List RunRow} :
    (∃ run ∈ updateRun held (concludedRow c) runs, run.id = runId ∧ run.outcome.isSome = true) ↔
      ((∃ run ∈ runs, run.id = runId ∧ run.outcome.isSome = true) ∨
        (runId = held ∧ ∃ run ∈ runs, run.id = held)) := by
  have hrow : ∀ run : RunRow, (concludedRow c run).id = run.id ∧
      (concludedRow c run).outcome.isSome = true := by
    intro run
    unfold concludedRow
    cases hout : run.outcome with
    | none => exact ⟨rfl, rfl⟩
    | some o => exact ⟨rfl, by rw [if_neg (by simp), hout]; rfl⟩
  constructor
  · rintro ⟨run, hrun, hid, hsome⟩
    obtain ⟨old, hold, hmap⟩ := List.mem_map.mp hrun
    by_cases hif : old.id = held
    · rw [if_pos hif] at hmap
      subst hmap
      exact .inr ⟨hid.symm.trans ((hrow old).1.trans hif), old, hold, hif⟩
    · rw [if_neg hif] at hmap
      subst hmap
      exact .inl ⟨old, hold, hid, hsome⟩
  · rintro (⟨run, hrun, hid, hsome⟩ | ⟨rfl, run, hrun, hid⟩)
    · by_cases hif : run.id = held
      · exact ⟨_, List.mem_map.mpr ⟨run, hrun, if_pos hif⟩, (hrow run).1.trans hid, (hrow run).2⟩
      · exact ⟨run, List.mem_map.mpr ⟨run, hrun, if_neg hif⟩, hid, hsome⟩
    · exact ⟨_, List.mem_map.mpr ⟨run, hrun, if_pos hid⟩, (hrow run).1.trans hid, (hrow run).2⟩

/-- **A conclusion.** -/
theorem Told.concluded (h : db.Told) (hlined : db.Lined) {held : ClaimedJob} {c : Conclusion}
    {status : JobStatus} {u : Unit} (hrun : concludeRun held c status db = .ok (u, db')) :
    db'.Told := by
  obtain ⟨hruns, ⟨⟨run, hmem, hid, hnone⟩, payload, haudit⟩ | ⟨hall, haudit⟩⟩ := concludeRun_ok hrun
  · have hopen : ¬ db.Concluded held.runId := by
      rintro ⟨run', hmem', hid', hsome⟩
      obtain rfl := List.inj_on_of_nodup_map hlined.runIds hmem hmem' (hid.trans hid'.symm)
      rw [hnone] at hsome
      cases hsome
    have hiff : ∀ runId, db'.Concluded runId ↔ db.Concluded runId ∨ runId = held.runId := by
      intro runId
      unfold Db.Concluded
      rw [hruns, concluded_update]
      exact or_congr_right ⟨fun h => h.1, fun h => ⟨h, run, hmem, hid⟩⟩
    refine ⟨fun runId hc => ?_, fun runId hc => ?_⟩
    · rw [conclusions_snoc haudit]
      rcases (hiff runId).mp hc with hold | rfl
      · rw [h.once runId hold, if_neg]
        rintro rfl
        exact hopen hold
      · rw [h.never _ hopen, if_pos rfl]
    · rw [conclusions_snoc haudit, h.never runId fun hold => hc ((hiff runId).mpr (.inl hold)),
        if_neg fun heq => hc ((hiff runId).mpr (.inr heq))]
  · -- Another attempt concluded the run before.
    refine h.next ⟨[], by simp [haudit], by simp⟩ fun runId => ?_
    unfold Db.Concluded
    rw [hruns, concluded_update]
    refine or_iff_left_of_imp ?_
    rintro ⟨rfl, run, hrun, hid⟩
    exact ⟨run, hrun, hid, hall run hrun hid⟩

/-- **Every transaction keeps the log of the conclusions.** -/
theorem Told.run (h : db.Told) (hlined : db.Lined) {site : Site} {now pick : Nat} {c : DbCall}
    {v : c.Val} (hspeaks : c.Speaks) (hrun : c.run site now pick db = .ok (v, db')) : db'.Told := by
  by_cases hconclude : ∃ held conclusion status, c = .concludeRun held conclusion status
  · obtain ⟨held, conclusion, status, rfl⟩ := hconclude
    exact h.concluded hlined hrun
  have hne : ∀ held conclusion status, c ≠ .concludeRun held conclusion status :=
    fun held conclusion status heq => hconclude ⟨held, conclusion, status, heq⟩
  refine h.next (DbCall.run_logs hspeaks hrun hne) fun runId => ?_
  rcases DbCall.run_runs hrun with ⟨f, hruns, hf⟩ | ⟨actor, source, incident, rfl⟩
  · have hout : ∀ run ∈ db.runs, (f run).id = run.id ∧ (f run).outcome = run.outcome := by
      intro run hmem
      generalize hrow : f run = run'
      have hmove := hf run hmem
      rw [hrow] at hmove
      cases hmove with
      | kept _ _ hid _ hout => exact ⟨hid, hout⟩
      | concluded => exact absurd rfl (hne _ _ _)
    unfold Db.Concluded
    rw [hruns]
    constructor
    · rintro ⟨run', hrun', hid, hsome⟩
      obtain ⟨run, hmem, rfl⟩ := List.mem_map.mp hrun'
      rw [(hout run hmem).1] at hid
      rw [(hout run hmem).2] at hsome
      exact ⟨run, hmem, hid, hsome⟩
    · rintro ⟨run, hmem, hid, hsome⟩
      refine ⟨f run, List.mem_map_of_mem hmem, ?_, ?_⟩
      · rw [(hout run hmem).1]
        exact hid
      · rw [(hout run hmem).2]
        exact hsome
  · rcases ingest_ok hrun with rfl | ⟨-, -, hruns, -⟩
    · exact Iff.rfl
    · unfold Db.Concluded
      rw [hruns]
      constructor
      · rintro ⟨run, hmem, hid, hsome⟩
        rcases List.mem_append.mp hmem with hmem | hmem
        · exact ⟨run, hmem, hid, hsome⟩
        · cases List.mem_singleton.mp hmem
          cases hsome
      · rintro ⟨run, hmem, hid, hsome⟩
        exact ⟨run, List.mem_append_left _ hmem, hid, hsome⟩

end Db

/-! ## Starts -/

section
variable {site : Site} {tr : List site.Event} {ev : site.Event}

/-- The job is started at most `n` times in this part of the history. -/
def StartsAtMost (mid : List site.Event) (jobId n : Nat) : Prop :=
  ∀ starts : List site.Event, starts.Sublist mid → (∀ e ∈ starts, e.Starts jobId) →
    starts.length ≤ n

theorem StartsAtMost.nil (jobId n : Nat) : StartsAtMost ([] : List site.Event) jobId n := by
  intro starts hsub _
  rw [List.sublist_nil.mp hsub]
  exact Nat.zero_le _

theorem StartsAtMost.mono {mid : List site.Event} {jobId n m : Nat} (h : StartsAtMost mid jobId n)
    (hnm : n ≤ m) : StartsAtMost mid jobId m :=
  fun starts hsub hall => (h starts hsub hall).trans hnm

theorem startsAtMost_of_none {mid : List site.Event} {jobId : Nat}
    (h : ∀ e ∈ mid, ¬ e.Starts jobId) (n : Nat) : StartsAtMost mid jobId n := by
  intro starts hsub hall
  rw [List.eq_nil_iff_forall_not_mem.mpr fun e he => h e (hsub.subset he) (hall e he)]
  exact Nat.zero_le _

/-- One more event. -/
theorem StartsAtMost.snoc {mid : List site.Event} {jobId n m : Nat} (h : StartsAtMost mid jobId n)
    (hm : n ≤ m) (hstart : ev.Starts jobId → n + 1 ≤ m) : StartsAtMost (mid ++ [ev]) jobId m := by
  intro starts hsub hall
  obtain ⟨l, l', rfl, hl, hl'⟩ := List.sublist_append_iff.mp hsub
  have hlen := h l hl fun e he => hall e (List.mem_append_left _ he)
  rcases List.sublist_singleton.mp hl' with rfl | rfl
  · rw [List.append_nil]
    exact hlen.trans hm
  · have hlast := hstart (hall ev (by simp))
    rw [List.length_append, List.length_singleton]
    omega

/-- **What holds of the starts of the jobs.** -/
structure StartsKept (site : Site) (db : Db) (tr : List site.Event) : Prop where
  known : ∀ e ∈ tr, ∀ jobId, e.Starts jobId → ∃ job ∈ db.jobs, job.id = jobId
  waiting : ∀ job ∈ db.jobs, job.status = .waiting → job.attempts = 0
  /-- Since it was parked a job was started no more often than its attempts say. -/
  attempts : ∀ job ∈ db.jobs, ∀ pre mid, tr = pre ++ mid → (∀ e ∈ mid, ¬ e.Parks job.id) →
    StartsAtMost mid job.id (min job.attempts job.maxAttempts)
  always : ∀ job ∈ db.jobs, ∀ pre mid post, tr = pre ++ mid ++ post →
    (∀ e ∈ mid, ¬ e.Parks job.id) → StartsAtMost mid job.id job.maxAttempts

/-- A part of the history that ends with the last event, or before it. -/
theorem append_cases {α : Type} {xs pre mid : List α} {x : α} (h : xs ++ [x] = pre ++ mid) :
    mid = [] ∨ ∃ mid', mid = mid' ++ [x] ∧ xs = pre ++ mid' := by
  rcases List.eq_nil_or_concat mid with rfl | ⟨mid', last, rfl⟩
  · exact .inl rfl
  · rw [List.concat_eq_append, ← List.append_assoc] at h
    obtain ⟨hinit, hlast⟩ := List.append_inj' h rfl
    refine .inr ⟨mid', ?_, hinit⟩
    rw [List.concat_eq_append, hlast]

/-- How a job fares in one event: its id and its limit stay; unless the event parks it, it has
at least the attempts it had, and one more if the event starts it. -/
def JobRow.Fares (ev : site.Event) (job job' : JobRow) : Prop :=
  job'.id = job.id ∧ job'.maxAttempts = job.maxAttempts ∧
    (¬ ev.Parks job.id → job.attempts ≤ job'.attempts ∧
      (ev.Starts job.id → job.attempts + 1 ≤ min job'.attempts job.maxAttempts)) ∧
    (job'.status = .waiting → job'.attempts = 0)

/-- **The invariant, over one event** in which each job that there is was there and fares well,
or is new. -/
theorem StartsKept.next {db : Db} (h : StartsKept site ev.before.db tr)
    (hjobs : ∀ job' ∈ db.jobs, (∃ job ∈ ev.before.db.jobs, job.Fares ev job') ∨
      (job'.status ≠ .waiting ∧ (∀ job ∈ ev.before.db.jobs, job.id ≠ job'.id) ∧
        ¬ ev.Starts job'.id))
    (hkept : ∀ job ∈ ev.before.db.jobs, ∃ job' ∈ db.jobs, job'.id = job.id)
    (hstarts : ∀ jobId, ev.Starts jobId → ∃ job ∈ ev.before.db.jobs, job.id = jobId) :
    StartsKept site db (tr ++ [ev]) := by
  have hattempts : ∀ job' ∈ db.jobs, ∀ pre mid, tr ++ [ev] = pre ++ mid →
      (∀ e ∈ mid, ¬ e.Parks job'.id) →
        StartsAtMost mid job'.id (min job'.attempts job'.maxAttempts) := by
    intro job' hjob' pre mid htr hparks
    rcases append_cases htr with rfl | ⟨mid', rfl, htr'⟩
    · exact .nil _ _
    · have hmid : ∀ e ∈ mid', ¬ e.Parks job'.id := fun e he => hparks e (List.mem_append_left _ he)
      rcases hjobs job' hjob' with ⟨job, hjob, hid, hmax, hfares, -⟩ | ⟨-, hnew, hnot⟩
      · rw [hid] at hmid hparks
        obtain ⟨hle, hstart⟩ := hfares (hparks ev (by simp))
        rw [hid, hmax]
        refine (h.attempts job hjob pre mid' htr' hmid).snoc (by omega) fun hs => ?_
        have hone := hstart hs
        omega
      · -- No event is about a job that there was not.
        refine startsAtMost_of_none (fun e he hs => ?_) _
        rcases List.mem_append.mp he with hmem | hmem
        · have hin : e ∈ tr := by
            rw [htr']
            exact List.mem_append_right _ hmem
          obtain ⟨job, hjob, hid⟩ := h.known e hin job'.id hs
          exact hnew job hjob hid
        · cases List.mem_singleton.mp hmem
          exact hnot hs
  refine ⟨fun e he jobId hs => ?_, fun job' hjob' hs => ?_, hattempts,
    fun job' hjob' pre mid post htr hparks => ?_⟩
  · have hold : ∃ job ∈ ev.before.db.jobs, job.id = jobId := by
      rcases List.mem_append.mp he with he | he
      · exact h.known e he jobId hs
      · cases List.mem_singleton.mp he
        exact hstarts jobId hs
    obtain ⟨job, hjob, hid⟩ := hold
    obtain ⟨job', hjob', hid'⟩ := hkept job hjob
    exact ⟨job', hjob', hid'.trans hid⟩
  · rcases hjobs job' hjob' with ⟨job, -, -, -, -, hwait⟩ | ⟨hne, -, -⟩
    · exact hwait hs
    · exact absurd hs hne
  · rcases append_cases htr with rfl | ⟨post', rfl, htr'⟩
    · rw [List.append_nil] at htr
      exact (hattempts job' hjob' pre mid htr hparks).mono (Nat.min_le_right _ _)
    · rcases hjobs job' hjob' with ⟨job, hjob, hid, hmax, -, -⟩ | ⟨-, hnew, hnot⟩
      · rw [hid] at hparks
        rw [hid, hmax]
        exact h.always job hjob pre mid post' htr' hparks
      · refine startsAtMost_of_none (fun e he hs => ?_) _
        have hin : e ∈ tr := by
          rw [htr']
          exact List.mem_append_left _ (List.mem_append_right _ he)
        obtain ⟨job, hjob, hid⟩ := h.known e hin job'.id hs
        exact hnew job hjob hid

/-- A start counts an attempt, and there is one left to count. -/
theorem Site.Event.Starts.taken {jobId : Nat} (h : ev.Starts jobId) :
    ∃ job ∈ ev.before.db.jobs, job.id = jobId ∧ job.attempts + 1 ≤ job.maxAttempts ∧
      ∃ worker, job.taken site ev.time worker ∈ ev.after.db.jobs := by
  obtain ⟨worker, held, hc, rfl, hle⟩ := h
  rcases claimJob_ok hc.2 with ⟨hnone, -⟩ | ⟨job, hjob, -, hsome, hdb⟩
  · cases hnone
  · cases hsome
    refine ⟨job, hjob, rfl, hle, worker, ?_⟩
    rw [hdb]
    exact List.mem_map.mpr ⟨job, hjob, if_pos rfl⟩

/-- **How the jobs fare in an event.** -/
theorem JobRow.Move.fares {c : DbCall} {job job' : JobRow} (h : job.Move site ev.time c job')
    (hjob : job ∈ ev.before.db.jobs) (hjob' : job' ∈ ev.after.db.jobs)
    (hids : (ev.before.db.jobs.map (·.id)).Nodup) (hids' : (ev.after.db.jobs.map (·.id)).Nodup)
    (hc : ∀ held number reason, c = .parkJob held number reason → held.id = job.id →
      ev.Parks job.id)
    (hwait : job.status = .waiting → job.attempts = 0) : job.Fares ev job' := by
  refine ⟨h.id_eq, h.maxAttempts_eq, fun hparks => ⟨?_, fun hs => ?_⟩, fun hs => ?_⟩
  · cases h with
    | woken _ hs => rw [hwait hs]
    | claimed => exact Nat.le_succ _
    | parked held number reason hid => exact absurd (hc held number reason rfl hid) hparks
    | _ => exact Nat.le_refl _
  · obtain ⟨old, hold, hid, hle, worker, htaken⟩ := hs.taken
    obtain rfl := List.inj_on_of_nodup_map hids hold hjob hid
    obtain rfl := List.inj_on_of_nodup_map hids' htaken hjob' h.id_eq.symm
    exact Nat.le_min.mpr ⟨Nat.le_refl _, hle⟩
  · cases h with
    | same => exact hwait hs
    | renewed => exact hwait hs
    | parked => rfl
    | woken | claimed | released => cases hs
    | concluded _ _ _ _ hstatus =>
      rcases hstatus with rfl | rfl
      all_goals cases hs
    | finished _ hstatus =>
      subst hstatus
      cases hs

/-- **Every step keeps the count of the starts.** -/
theorem startsKept_step (hop : ev.op.OfService) (hev : ev.Happens) (hlined : ev.before.db.Lined)
    (hlined' : ev.after.db.Lined) (h : StartsKept site ev.before.db tr) :
    StartsKept site ev.after.db (tr ++ [ev]) := by
  have hstarts : ∀ jobId, ev.Starts jobId → ∃ job ∈ ev.before.db.jobs, job.id = jobId := by
    intro jobId hs
    obtain ⟨job, hjob, hid, -⟩ := hs.taken
    exact ⟨job, hjob, hid⟩
  have hmoved : ∀ c, (∀ held number reason, c = .parkJob held number reason →
      ev.Commits (.parkJob held number reason) ()) →
      JobsMoved site ev.time c ev.before.db.jobs ev.after.db.jobs →
        StartsKept site ev.after.db (tr ++ [ev]) := by
    rintro c hpark ⟨f, hjobs, hf⟩
    refine h.next (fun job' hjob' => ?_) (fun job hjob => ?_) hstarts
    · have hmem := hjob'
      rw [hjobs] at hmem
      obtain ⟨job, hjob, rfl⟩ := List.mem_map.mp hmem
      exact .inl ⟨job, hjob, (hf job hjob).fares hjob hjob' hlined.jobIds hlined'.jobIds
        (fun held number reason heq hid => ⟨held, number, reason, hpark held number reason heq, hid⟩)
        (h.waiting job hjob)⟩
    · refine ⟨f job, ?_, (hf job hjob).id_eq⟩
      rw [hjobs]
      exact List.mem_map_of_mem hjob
  rcases hev.db_cases with hsame | ⟨c, v, hc⟩
  · refine hmoved .switchesOn (fun _ _ _ heq => (nomatch heq)) ?_
    rw [hsame]
    exact .refl ..
  · have hopc := hop
    rw [hc.1] at hopc
    rcases DbCall.run_jobs hopc.ends hlined.jobIds hc.2 with hjobs | ⟨⟨_, _, _, rfl⟩, hjobs⟩
    · refine hmoved c (fun held number reason heq => ?_) hjobs
      subst heq
      exact hc
    · -- A new job has the next id.
      refine h.next (fun job' hjob' => ?_) (fun job hjob => ⟨job, ?_, rfl⟩) hstarts
      · have hnone : ∀ jobId, ¬ ev.Starts jobId := by
          rintro jobId ⟨_, _, hc', -⟩
          cases hc.call_eq hc'
        rw [hjobs] at hjob'
        rcases List.mem_append.mp hjob' with hold | hnew
        · exact .inl ⟨job', hold, rfl, rfl, fun _ => ⟨Nat.le_refl _, fun hs => absurd hs (hnone _)⟩,
            h.waiting job' hold⟩
        · cases List.mem_singleton.mp hnew
          refine .inr ⟨fun hs => (nomatch hs), fun job hjob hid => ?_, hnone _⟩
          have hmem : job.id ∈ List.range ev.before.db.incidents.length := by
            rw [← hlined.jobs]
            exact List.mem_map_of_mem hjob
          have hlen := congrArg List.length hlined.jobs
          rw [List.length_map, List.length_range] at hlen
          have hlt := List.mem_range.mp hmem
          rw [hid] at hlt
          simp only [newJob] at hlt
          omega
      · rw [hjobs]
        exact List.mem_append_left _ hjob

end

/-! ## Runs -/

/-- No ticket has come in yet. -/
def Db.Unused (db : Db) : Prop :=
  db.incidents = [] ∧ db.runs = [] ∧ db.jobs = [] ∧ db.audit = []

/-- **What holds of the intake in every state.** -/
structure IntakeKept (site : Site) (db : Db) (tr : List site.Event) : Prop where
  lined : db.Lined
  told : db.Told
  starts : StartsKept site db tr

theorem intakeKept_unused {site : Site} {db : Db} (h : db.Unused) : IntakeKept site db [] := by
  obtain ⟨hincidents, hruns, hjobs, haudit⟩ := h
  refine ⟨⟨?_, ?_, ?_, ?_, ?_, ?_⟩, ⟨fun runId hc => ?_, fun runId _ => ?_⟩,
    ⟨fun _ he => (nomatch he), fun job hjob => ?_, fun job hjob => ?_, fun job hjob => ?_⟩⟩
  · rw [hincidents]
    rfl
  · rw [hruns, hincidents]
    rfl
  · rw [hruns, hincidents]
    rfl
  · rw [hjobs, hincidents]
    rfl
  · rw [hjobs, hincidents]
    rfl
  · rw [hincidents]
    exact .nil
  · obtain ⟨run, hrun, -⟩ := hc
    rw [hruns] at hrun
    cases hrun
  · unfold Db.conclusions
    rw [haudit]
    rfl
  all_goals
    rw [hjobs] at hjob
    cases hjob

/-- **Every step keeps it.** -/
theorem intakeKept_step {site : Site} {tr : List site.Event} {ev : site.Event}
    (hop : ev.op.OfService) (hev : ev.Happens) (h : IntakeKept site ev.before.db tr) :
    IntakeKept site ev.after.db (tr ++ [ev]) := by
  have hlined : ev.after.db.Lined := by
    rcases hev.db_cases with hsame | ⟨c, v, hc⟩
    · rw [hsame]
      exact h.lined
    · rw [hc.1] at hop
      exact h.lined.next hop.ends hc.2
  refine ⟨hlined, ?_, startsKept_step hop hev h.lined hlined h.starts⟩
  rcases hev.db_cases with hsame | ⟨c, v, hc⟩
  · rw [hsame]
    exact h.told
  · rw [hc.1] at hop
    exact h.told.run h.lined hop.speaks hc.2

/-- The runs go on. -/
def Db.RunsOn (db db' : Db) : Prop :=
  ∀ run ∈ db.runs, ∃ run' ∈ db'.runs, run'.id = run.id ∧
    ∀ o, run.outcome = some o → run'.outcome = some o

theorem Db.RunsOn.trans {a b c : Db} (h : a.RunsOn b) (h' : b.RunsOn c) : a.RunsOn c := by
  intro run hrun
  obtain ⟨run', hrun', hid, hout⟩ := h run hrun
  obtain ⟨run'', hrun'', hid', hout'⟩ := h' run' hrun'
  exact ⟨run'', hrun'', hid'.trans hid, fun o ho => hout' o (hout o ho)⟩

/-- **An outcome stays**, over one step. -/
theorem runsOn_step {site : Site} {ev : site.Event} (hev : ev.Happens) :
    ev.before.db.RunsOn ev.after.db := by
  rcases hev.db_cases with hsame | ⟨c, v, hc⟩
  · rw [hsame]
    exact fun run hrun => ⟨run, hrun, rfl, fun o ho => ho⟩
  · rcases DbCall.run_runs hc.2 with ⟨f, hruns, hf⟩ | ⟨_, _, _, rfl⟩
    · intro run hrun
      refine ⟨f run, ?_, (hf run hrun).id_eq, fun o ho => (hf run hrun).outcome_eq ho⟩
      rw [hruns]
      exact List.mem_map_of_mem hrun
    · intro run hrun
      rcases Db.ingest_ok hc.2 with hsame | ⟨-, -, hruns, -⟩
      · rw [hsame]
        exact ⟨run, hrun, rfl, fun o ho => ho⟩
      · refine ⟨run, ?_, rfl, fun o ho => ho⟩
        rw [hruns]
        exact List.mem_append_left _ hrun

/-- **Exactly one intake, and one conclusion**, over every run of a deployment: deliveries of
tickets, workers and their heartbeats, approvals and sweeps, in any order and each stopped
wherever it may be. -/
theorem concluded_once (site : Site) (s : Estate) (hs : s.db.Unused)
    (c d : Config Calls Exn (Estate × List site.Event))
    (hc : site.service.recorded.Reaches (System.anyStep _) (Config.idle (s, [])) c)
    (hd : site.service.recorded.Reaches (System.anyStep _) c d) :
    ConcludedOnce site c.shared.1.db d.shared.1.db d.shared.2 := by
  have hkept : IntakeKept site d.shared.1.db d.shared.2 :=
    recorded_service_keep (I := fun s tr => IntakeKept site s.db tr)
      (fun ev tr hop hev _ h => intakeKept_step hop hev h) (hc.trans hd) (intakeKept_unused hs)
  have hon : c.shared.1.db.RunsOn d.shared.1.db :=
    System.recorded_rel (R := fun s s' => s.db.RunsOn s'.db)
      (fun s run hrun => ⟨run, hrun, rfl, fun o ho => ho⟩) (fun _ _ _ => Db.RunsOn.trans)
      (fun ev hev => @runsOn_step site ev hev) hd
  refine ⟨hkept.lined.onePerTicket, fun run hrun o ho run' hrun' hid => ?_, fun run hrun => ?_,
    List.pairwise_map.mp hkept.lined.runIds, fun run hrun hsome => hkept.told.once run.id
      ⟨run, hrun, rfl, hsome⟩, hkept.starts.always⟩
  · obtain ⟨later, hlater, hid', hout⟩ := hon run hrun
    obtain rfl := List.inj_on_of_nodup_map hkept.lined.runIds hrun' hlater (hid.trans hid'.symm)
    exact hout o ho
  · obtain ⟨run', hrun', hid, -⟩ := hon run hrun
    exact ⟨run', hrun', hid⟩

/-- A deployment that no ticket has reached. -/
def unusedEstate : Estate :=
  { servingEstate .automatic with
    db := { (servingEstate .automatic).db with incidents := [], runs := [], jobs := [] } }

/-- A ticket that is delivered twice, taken up once, and resolved. -/
theorem concluded_once_sample : ∃ c d : Config Calls Exn (Estate × List servingSite.Event),
    c.shared.1.db.runs.map (·.outcome) = [none] ∧
      d.shared.1.db.runs.map (·.outcome) = [some "resolved"] ∧
      ConcludedOnce servingSite c.shared.1.db d.shared.1.db d.shared.2 := by
  have hplay : ((servingSite.service.recorded.play (Config.idle (unusedEstate, []))
      [.start (Op.alone (.db (.ingest "system:poller" "servicenow" sampleIncident))), .op 0 smooth,
        .start (Op.alone (.db (.ingest "token:hook" "servicenow" sampleIncident))),
        .op 1 smooth]).bind fun c =>
          (servingSite.service.recorded.play c
            (.start servingTurn :: List.replicate 44 (.op 2 smooth))).map fun d =>
              (c.shared.1.db.runs.map (·.outcome), d.shared.1.db.runs.map (·.outcome))) =
      some ([none], [some "resolved"]) := by
    decide +kernel
  obtain ⟨c, hc, hplay⟩ := Option.bind_eq_some_iff.mp hplay
  obtain ⟨d, hd, hends⟩ := Option.map_eq_some_iff.mp hplay
  obtain ⟨hruns, hruns'⟩ := Prod.mk.inj hends
  refine ⟨c, d, hruns, hruns', concluded_once servingSite unusedEstate ⟨rfl, rfl, rfl, rfl⟩ c d
    (System.play_reaches _ (fun p hp => ?_) hc) (System.play_reaches _ ?_ hd)⟩
  · simp only [List.mem_cons, System.Move.start.injEq, List.not_mem_nil, reduceCtorEq, false_or,
      or_false] at hp
    rcases hp with rfl | rfl
    all_goals exact Service.outside _ rfl
  · exact .start (Service.work _ _ _) .ops

end L1Agent
