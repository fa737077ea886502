import L1Agent.Library.Leases
import L1Agent.Service.Events

/-! # Who holds a job

A worker that claims a job holds it until its lease expires or it gives the job up; its
heartbeat extends the lease.  A claim takes no job whose lease has not expired.  But the
transactions with which a worker leaves a job (`DbCall.leaves`) name the job alone: a worker
that was overtaken, its lease expired and the job claimed by another, takes the job away from
the other with them.

While no overtaken worker does that, a job has one holder at a time (`lease_exclusive`).
-/
namespace L1Agent
open Interleaving Leasing

/-- A worker's turn. -/
structure Turn where
  thread : Nat
  worker : String
  deriving DecidableEq

/-- The job that a worker leaves with this transaction. -/
def DbCall.leaves : DbCall → Option Nat
  | parkJob job _ _ | concludeRun job _ _ | releaseJob job _ => some job.id
  | finishJob jobId _ => some jobId
  | _ => none

/-- What an event does to the leases on the jobs, the newest first.  A claim whose answer is
lost is a claim all the same. -/
def Site.Event.leases {site : Site} (ev : site.Event) (ls : List (Lease Turn Nat)) :
    List (Lease Turn Nat) :=
  if (ev.choice : Choice).lands = false then ls
  else match ev.op with
  | .db (.claimJob worker) =>
    match ev.before.db.jobs.find? (·.claimable ev.time) with
    | some job => ⟨⟨ev.thread, worker⟩, job.id, ev.time + site.lease, false⟩ :: ls
    | none => ls
  | .db (.renewLease jobId worker) =>
    if ev.before.db.jobs.any fun job => job.id == jobId && job.lockedBy == worker then
      extend jobId (ev.time + site.lease) ls
    else ls
  | .db c => c.leaves.elim ls fun jobId => surrender jobId (·.thread == ev.thread) ls
  | _ => ls

/-- The leases that a history has granted. -/
def leases {site : Site} (tr : List site.Event) : List (Lease Turn Nat) :=
  tr.foldl (fun ls ev => ev.leases ls) []

theorem leases_snoc {site : Site} (tr : List site.Event) (ev : site.Event) :
    leases (tr ++ [ev]) = ev.leases (leases tr) := by
  simp [leases]

/-- **No one else's late exit** changes a job, or its run, while a lease on it holds. -/
def Undisturbed {site : Site} (tr : List site.Event) : Prop :=
  ∀ pre ev post, tr = pre ++ ev :: post → ∀ c, ev.op = .db c → ∀ l ∈ leases pre,
    c.leaves = some l.key → l.holder.thread ≠ ev.thread → l.Holds ev.time →
      ev.after.db.jobs = ev.before.db.jobs ∧ ev.after.db.runs = ev.before.db.runs

/-- **The step is in turn.**  A worker leaves a job only while nobody who has claimed it since
holds it; a heartbeat extends a lease that was not given up only while the job is running. -/
def Op.InTurn {site : Site} (t : Nat) (ch : Choice) (s : Estate) (tr : List site.Event) :
    Op → Prop
  | .db (.renewLease jobId worker) =>
    ch.lands = true → ∀ l ∈ newest jobId (leases tr), l.ended = false → l.holder.worker = worker →
      ∀ job ∈ s.db.jobs, job.id = jobId → job.status = .running
  | .db c =>
    ch.lands = true → ∀ jobId ∈ c.leaves, ∀ l ∈ newest jobId (leases tr),
      l.holder.thread = t ∨ ¬ l.Holds (s.now + ch.elapsed)
  | _ => True

instance {site : Site} (t : Nat) (ch : Choice) (s : Estate) (tr : List site.Event) (o : Op) :
    Decidable (o.InTurn t ch s tr) := by
  unfold Op.InTurn
  split <;> infer_instance

/-- A check of the condition. -/
def Op.inTurn {site : Site} (t : Nat) (o : Op) (ch : Choice) (s : Estate × List site.Event) :
    Bool := decide (o.InTurn t ch s.1 s.2)

theorem Op.inTurn_holds {site : Site} {t : Nat} {o : Op} {ch : Choice}
    {s : Estate × List site.Event} (h : o.inTurn t ch s = true) : o.InTurn t ch s.1 s.2 :=
  of_decide_eq_true h

/-! ## The leases and the rows -/

/-- The ids of the jobs are given in turn. -/
def Db.Numbered (db : Db) : Prop := db.jobs.map (·.id) = List.range db.jobs.length

/-- The row of a job whose newest lease is `l`. -/
def JobRow.Under (job : JobRow) (l : Lease Turn Nat) (now : Nat) : Prop :=
  job.id = l.key ∧ job.lockedBy = l.holder.worker ∧
    (l.Holds now → job.status = .running ∧ job.lockedUntil = some l.expires)

/-- **The leases agree with the rows**: only the newest on a job may hold, and its row says so. -/
structure LeasesKept (now : Nat) (db : Db) (ls : List (Lease Turn Nat)) : Prop where
  numbered : db.Numbered
  settled : Settled now ls
  row : ∀ jobId l, newest jobId ls = some l → ∃ job ∈ db.jobs, job.Under l now

section
variable {site : Site} {now now' : Nat} {db db' : Db} {ls : List (Lease Turn Nat)}

theorem Db.Numbered.nodup (h : db.Numbered) : (db.jobs.map (·.id)).Nodup := by
  unfold Db.Numbered at h
  rw [h]
  exact List.nodup_range

theorem Db.Numbered.moved {c : DbCall} (h : db.Numbered)
    (hmoved : JobsMoved site now c db.jobs db'.jobs) : db'.Numbered := by
  obtain ⟨f, hjobs, hf⟩ := hmoved
  unfold Db.Numbered at h ⊢
  rw [hjobs, List.map_map, List.length_map, ← h]
  exact List.map_congr_left fun job hjob => (hf job hjob).id_eq

theorem Db.Numbered.run {pick : Nat} {c : DbCall} {v : c.Val} (h : db.Numbered)
    (hends : c.Ends) (hrun : c.run site now pick db = .ok (v, db')) : db'.Numbered := by
  rcases DbCall.run_jobs hends h.nodup hrun with hmoved | ⟨-, hjobs⟩
  · exact h.moved hmoved
  · unfold Db.Numbered at h ⊢
    rw [hjobs, List.map_append, List.length_append, h]
    exact List.range_succ.symm

/-- Time passes. -/
theorem JobRow.Under.later {job : JobRow} {l : Lease Turn Nat} (h : job.Under l now)
    (hle : now ≤ now') : job.Under l now' :=
  ⟨h.1, h.2.1, fun hholds => h.2.2 (hholds.earlier hle)⟩

theorem LeasesKept.later (h : LeasesKept now db ls) (hle : now ≤ now') : LeasesKept now' db ls where
  numbered := h.numbered
  settled := h.settled.later hle
  row jobId l hl := by
    obtain ⟨job, hjob, hunder⟩ := h.row jobId l hl
    exact ⟨job, hjob, hunder.later hle⟩

/-- A job whose lease holds is claimed by nobody. -/
theorem JobRow.Under.not_holds {job : JobRow} {l : Lease Turn Nat} (h : job.Under l now)
    (hclaimable : job.claimable now = true) : ¬ l.Holds now := by
  intro hholds
  obtain ⟨hs, huntil⟩ := h.2.2 hholds
  have hle := hholds.2
  unfold JobRow.claimable at hclaimable
  rw [hs, huntil] at hclaimable
  simp only [Option.any_some, Bool.or_eq_true, Bool.and_eq_true, decide_eq_true_eq,
    beq_iff_eq, reduceCtorEq, false_and, true_and, false_or] at hclaimable
  omega

/-- There is one row with an id. -/
theorem LeasesKept.row_eq (h : LeasesKept now db ls) {jobId : Nat} {l : Lease Turn Nat}
    (hl : newest jobId ls = some l) {job : JobRow} (hjob : job ∈ db.jobs) (hid : job.id = jobId) :
    job.Under l now := by
  obtain ⟨other, hother, hunder⟩ := h.row jobId l hl
  obtain rfl := List.inj_on_of_nodup_map h.numbered.nodup hjob hother
    (hid.trans ((newest_key hl).symm.trans hunder.1.symm))
  exact hunder

/-- A transaction about other jobs. -/
theorem LeasesKept.rows (h : LeasesKept now db ls) (hnumbered : db'.Numbered)
    (hrows : ∀ job ∈ db.jobs, ∀ l, newest job.id ls = some l → job.Under l now →
      ∃ job' ∈ db'.jobs, job'.Under l now) : LeasesKept now db' ls where
  numbered := hnumbered
  settled := h.settled
  row jobId l hl := by
    obtain ⟨job, hjob, hunder⟩ := h.row jobId l hl
    refine hrows job hjob l ?_ hunder
    rw [hunder.1, newest_key hl]
    exact hl

/-- **A claim.** -/
theorem LeasesKept.claim (h : LeasesKept now db ls) {worker : String} {t : Nat} {job : JobRow}
    (hjob : job ∈ db.jobs) (hclaimable : job.claimable now = true)
    (hnumbered : ({ db with jobs := updateJob job.id (·.taken site now worker) db.jobs } : Db).Numbered) :
    LeasesKept now { db with jobs := updateJob job.id (·.taken site now worker) db.jobs }
      (⟨⟨t, worker⟩, job.id, now + site.lease, false⟩ :: ls) where
  numbered := hnumbered
  settled := h.settled.grant fun old hold => (h.row_eq hold hjob rfl).not_holds hclaimable
  row jobId l hl := by
    rw [newest_cons] at hl
    by_cases hid : job.id = jobId
    · rw [if_pos hid] at hl
      cases hl
      refine ⟨job.taken site now worker, ?_, rfl, rfl, fun _ => ⟨rfl, rfl⟩⟩
      exact List.mem_map.mpr ⟨job, hjob, if_pos rfl⟩
    · rw [if_neg hid] at hl
      obtain ⟨other, hother, hunder⟩ := h.row jobId l hl
      refine ⟨other, List.mem_map.mpr ⟨other, hother, if_neg fun heq => hid ?_⟩, hunder⟩
      rw [← heq, hunder.1, newest_key hl]

/-- **A beat of the heartbeat.** -/
theorem LeasesKept.renew (h : LeasesKept now db ls) {jobId : Nat} {worker : String}
    (hturn : ∀ l ∈ newest jobId ls, l.ended = false → l.holder.worker = worker →
      ∀ job ∈ db.jobs, job.id = jobId → job.status = .running)
    (hjobs : db'.jobs = updateJob jobId (fun job =>
      if job.lockedBy = worker then { job with lockedUntil := some (now + site.lease) } else job)
        db.jobs) (hnumbered : db'.Numbered) :
    LeasesKept now db' (if db.jobs.any fun job => job.id == jobId && job.lockedBy == worker then
      extend jobId (now + site.lease) ls else ls) := by
  have hother : ∀ job ∈ db.jobs, (job.id = jobId → job.lockedBy ≠ worker) → job ∈ db'.jobs := by
    intro job hjob hne
    rw [hjobs]
    refine List.mem_map.mpr ⟨job, hjob, ?_⟩
    by_cases hid : job.id = jobId
    · rw [if_pos hid]
      exact if_neg (hne hid)
    · rw [if_neg hid]
  by_cases hany : (db.jobs.any fun job => job.id == jobId && job.lockedBy == worker) = true
  · rw [if_pos hany]
    refine ⟨hnumbered, h.settled.extend jobId _, fun k l hl => ?_⟩
    rw [newest_extend] at hl
    by_cases hk : k = jobId
    · subst hk
      rw [if_pos rfl] at hl
      obtain ⟨old, hold, rfl⟩ := Option.map_eq_some_iff.mp hl
      obtain ⟨job, hjob, hboth⟩ := List.any_eq_true.mp hany
      obtain ⟨hid, hby⟩ : job.id = k ∧ job.lockedBy = worker := by simpa using hboth
      have hunder := h.row_eq hold hjob hid
      refine ⟨{ job with lockedUntil := some (now + site.lease) }, ?_, hunder.1, hunder.2.1,
        fun hholds => ⟨?_, rfl⟩⟩
      · rw [hjobs]
        refine List.mem_map.mpr ⟨job, hjob, ?_⟩
        rw [if_pos hid]
        exact if_pos hby
      · exact hturn old hold hholds.1 (hunder.2.1.symm.trans hby) job hjob hid
    · rw [if_neg hk] at hl
      obtain ⟨job, hjob, hunder⟩ := h.row k l hl
      refine ⟨job, hother job hjob fun hid => absurd ?_ hk, hunder⟩
      rw [← hid, hunder.1, newest_key hl]
  · rw [if_neg hany]
    refine h.rows hnumbered fun job hjob l _ hunder => ⟨job, hother job hjob fun hid hby => ?_, hunder⟩
    refine hany (List.any_eq_true.mpr ⟨job, hjob, ?_⟩)
    simp [hid, hby]

/-- **A worker leaves a job.** -/
theorem LeasesKept.leave (h : LeasesKept now db ls) {jobId t : Nat} {f : JobRow → JobRow}
    (hturn : ∀ l ∈ newest jobId ls, l.holder.thread = t ∨ ¬ l.Holds now)
    (hjobs : db'.jobs = updateJob jobId f db.jobs) (hid : ∀ job, (f job).id = job.id)
    (hby : ∀ job, (f job).lockedBy = job.lockedBy) (hnumbered : db'.Numbered) :
    LeasesKept now db' (surrender jobId (·.thread == t) ls) := by
  refine ⟨hnumbered, h.settled.surrender jobId _, fun k l hl => ?_⟩
  rw [newest_surrender] at hl
  obtain ⟨old, hold, rfl⟩ := Option.map_eq_some_iff.mp hl
  obtain ⟨job, hjob, hunder⟩ := h.row k old hold
  have hkey : old.key = k := newest_key hold
  by_cases hk : k = jobId
  · subst hk
    have hrow : f job ∈ db'.jobs := by
      rw [hjobs]
      exact List.mem_map.mpr ⟨job, hjob, if_pos (hunder.1.trans hkey)⟩
    by_cases ht : old.holder.thread = t
    · rw [if_pos ⟨hkey, by simpa using ht⟩]
      exact ⟨f job, hrow, (hid job).trans hunder.1, (hby job).trans hunder.2.1,
        fun hholds => nomatch hholds.1⟩
    · rw [if_neg fun hboth => ht (by simpa using hboth.2)]
      refine ⟨f job, hrow, (hid job).trans hunder.1, (hby job).trans hunder.2.1, fun hholds => ?_⟩
      exact absurd hholds ((hturn old hold).resolve_left ht)
  · rw [if_neg fun hboth => hk (hkey.symm.trans hboth.1)]
    refine ⟨job, ?_, hunder⟩
    rw [hjobs]
    exact List.mem_map.mpr ⟨job, hjob, if_neg fun heq => hk ((hunder.1.trans hkey).symm.trans heq)⟩

/-- **Any other transaction.** -/
theorem LeasesKept.other (h : LeasesKept now db ls) {pick : Nat} {c : DbCall} {v : c.Val}
    (hends : c.Ends) (hclaim : ∀ worker, c ≠ .claimJob worker)
    (hrenew : ∀ jobId worker, c ≠ .renewLease jobId worker) (hleaves : c.leaves = none)
    (hrun : c.run site now pick db = .ok (v, db')) : LeasesKept now db' ls := by
  refine h.rows (h.numbered.run hends hrun) fun job hjob l _ hunder => ?_
  rcases DbCall.run_jobs hends h.numbered.nodup hrun with ⟨f, hjobs, hf⟩ | ⟨-, hjobs⟩
  · refine ⟨f job, ?_, ?_⟩
    · rw [hjobs]
      exact List.mem_map_of_mem hjob
    · have hmove := hf job hjob
      generalize f job = job' at hmove
      cases hmove with
      | same => exact hunder
      | woken c hs =>
        refine ⟨hunder.1, hunder.2.1, fun hholds => ?_⟩
        have hrunning := (hunder.2.2 hholds).1
        rw [hs] at hrunning
        cases hrunning
      | claimed worker => exact absurd rfl (hclaim worker)
      | renewed worker => exact absurd rfl (hrenew _ worker)
      | parked | concluded | finished | released => cases hleaves
  · refine ⟨job, ?_, hunder⟩
    rw [hjobs]
    exact List.mem_append_left _ hjob

end

/-- **A step in turn** keeps the leases and the rows in agreement. -/
theorem leasesKept_step {site : Site} {tr : List site.Event} {ev : site.Event}
    (hop : ev.op.OfService) (hev : ev.Happens)
    (hturn : ev.op.InTurn ev.thread ev.choice ev.before tr)
    (h : LeasesKept ev.before.now ev.before.db (leases tr)) :
    LeasesKept ev.after.now ev.after.db (leases (tr ++ [ev])) := by
  obtain ⟨t, o, ch, s, answer, s'⟩ := ev
  have hnow : s'.now = s.now + ch.elapsed := Op.step_now hev
  have hlater : LeasesKept s'.now s.db (leases tr) := h.later (by show s.now ≤ s'.now; omega)
  rw [leases_snoc]
  cases o with
  | db c =>
    obtain ⟨hcommit, hkeep⟩ := Op.step_lands hev
    unfold Site.Event.leases
    by_cases hl : ch.lands = false
    · rw [if_pos hl]
      show LeasesKept s'.now s'.db (leases tr)
      rw [hkeep hl]
      exact hlater
    rw [if_neg hl]
    have hlands : ch.lands = true := by simpa using hl
    rw [← hnow] at hcommit
    have hafter := hcommit hlands
    have hends : c.Ends := Op.OfService.ends hop
    have hnumbered : ∀ v rows, c.run site s'.now ch.pick s.db = .ok (v, rows) →
        s'.db.Numbered := by
      intro v rows hrun
      rw [hafter v rows hrun]
      exact hlater.numbered.run hends hrun
    have hleave : ∀ (jobId : Nat) (f : JobRow → JobRow) (v : c.Val) (rows : Db),
        (∀ l ∈ newest jobId (leases tr), l.holder.thread = t ∨ ¬ l.Holds (s.now + ch.elapsed)) →
        c.run site s'.now ch.pick s.db = .ok (v, rows) → rows.jobs = updateJob jobId f s.db.jobs →
        (∀ job, (f job).id = job.id ∧ (f job).lockedBy = job.lockedBy) →
          LeasesKept s'.now s'.db (surrender jobId (·.thread == t) (leases tr)) := by
      intro jobId f v rows hown hrun hjobs hf
      rw [← hnow] at hown
      have hids := hnumbered v rows hrun
      rw [hafter v rows hrun] at hids ⊢
      exact hlater.leave hown hjobs (fun job => (hf job).1) (fun job => (hf job).2) hids
    cases c with
    | claimJob worker =>
      show LeasesKept s'.now s'.db (match s.db.jobs.find? (·.claimable (s.now + ch.elapsed)) with
        | some job => ⟨⟨t, worker⟩, job.id, s.now + ch.elapsed + site.lease, false⟩ :: leases tr
        | none => leases tr)
      rw [← hnow]
      cases hfind : s.db.jobs.find? (·.claimable s'.now) with
      | none =>
        have hrun : claimJob s'.now site.lease worker s.db = .ok (none, s.db) := by
          unfold claimJob
          rw [hfind]
        rw [hafter _ _ hrun]
        exact hlater
      | some job =>
        have hrun : claimJob s'.now site.lease worker s.db =
            .ok (some ⟨job.id, job.runId, job.attempts + 1, job.maxAttempts⟩,
              { s.db with jobs := updateJob job.id (·.taken site s'.now worker) s.db.jobs }) := by
          unfold claimJob
          rw [hfind]
          rfl
        have hids := hnumbered _ _ hrun
        rw [hafter _ _ hrun] at hids ⊢
        exact hlater.claim (List.mem_of_find?_eq_some hfind) (by simpa using List.find?_some hfind)
          hids
    | renewLease jobId worker =>
      have hrun : renewLease s'.now site.lease jobId worker s.db = .ok ((), _) := rfl
      have hids := hnumbered _ _ hrun
      have hown := hturn hlands
      show LeasesKept s'.now s'.db (if s.db.jobs.any (fun job => job.id == jobId &&
        job.lockedBy == worker) then extend jobId (s.now + ch.elapsed + site.lease) (leases tr)
          else leases tr)
      rw [← hnow, hafter _ _ hrun]
      rw [hafter _ _ hrun] at hids
      exact hlater.renew hown rfl hids
    | parkJob held number reason =>
      exact hleave held.id _ () _ (hturn hlands _ rfl) rfl rfl fun _ => ⟨rfl, rfl⟩
    | concludeRun held conclusion status =>
      exact hleave held.id _ () _ (hturn hlands _ rfl) rfl rfl fun _ => ⟨rfl, rfl⟩
    | finishJob jobId status =>
      exact hleave jobId _ () _ (hturn hlands _ rfl) rfl rfl fun _ => ⟨rfl, rfl⟩
    | releaseJob held error =>
      exact hleave held.id _ () _ (hturn hlands _ rfl) rfl rfl fun _ => ⟨rfl, rfl⟩
    | _ =>
      rcases Op.step_db hev with hsame | ⟨c', v, hcall, hrun⟩
      · rw [hsame]
        exact hlater
      · cases hcall
        rw [← hnow] at hrun
        exact hlater.other hends (fun _ h => nomatch h) (fun _ _ h => nomatch h) rfl hrun
  | _ =>
    have hsame : s'.db = s.db := by
      rcases Op.step_db hev with hsame | ⟨c, v, hcall, -⟩
      · exact hsame
      · cases hcall
    show LeasesKept s'.now s'.db (if ch.lands = false then leases tr else leases tr)
    rw [ite_self, hsame]
    exact hlater

/-- What the condition says of a worker that leaves a job. -/
theorem Op.InTurn.leaves {site : Site} {t : Nat} {ch : Choice} {s : Estate}
    {tr : List site.Event} {c : DbCall} {jobId : Nat} (h : (Op.db c).InTurn t ch s tr)
    (hleaves : c.leaves = some jobId) (hlands : ch.lands = true) :
    ∀ l ∈ newest jobId (leases tr), l.holder.thread = t ∨ ¬ l.Holds (s.now + ch.elapsed) := by
  cases c with
  | parkJob | concludeRun | finishJob | releaseJob => exact h hlands jobId hleaves
  | _ => cases hleaves

/-- In turn, nobody leaves a job that another holds. -/
theorem undisturbed_step {site : Site} {tr : List site.Event} {ev : site.Event}
    (hev : ev.Happens) (hturn : ev.op.InTurn ev.thread ev.choice ev.before tr)
    (h : LeasesKept ev.before.now ev.before.db (leases tr)) (hpast : Undisturbed tr) :
    Undisturbed (tr ++ [ev]) := by
  refine System.Each.snoc hpast ?_
  intro c hc l hl hleaves hother hholds
  obtain ⟨t, o, ch, s, answer, s'⟩ := ev
  obtain rfl : o = .db c := hc
  by_cases hlands : ch.lands = true
  · have hlater : LeasesKept (s.now + ch.elapsed) s.db (leases tr) := h.later (Nat.le_add_right ..)
    rcases hturn.leaves hleaves hlands l (hlater.settled.newest_of_holds hl hholds) with ht | hnot
    · exact absurd ht hother
    · exact absurd hholds hnot
  · have hsame : s'.db = s.db := (Op.step_lands hev).2 (by simpa using hlands)
    show s'.db.jobs = s.db.jobs ∧ s'.db.runs = s.db.runs
    rw [hsame]
    exact ⟨rfl, rfl⟩

/-- **A job has one holder at a time**, in every run of a deployment in which no overtaken worker
takes a job from the one that holds it. -/
theorem lease_exclusive (site : Site) (s : Estate) (hs : s.db.Numbered)
    (d : Config Calls Exn (Estate × List site.Event))
    (hd : site.service.recorded.Reaches (fun t o ch s => o.InTurn t ch s.1 s.2)
      (Config.idle (s, [])) d) :
    Exclusive d.shared.1.now (leases d.shared.2) ∧ Undisturbed d.shared.2 := by
  have hkept : LeasesKept d.shared.1.now d.shared.1.db (leases d.shared.2) ∧
      Undisturbed d.shared.2 :=
    recorded_service_keep (I := fun s tr => LeasesKept s.now s.db (leases tr) ∧ Undisturbed tr)
      (fun ev tr hop hev hturn h => ⟨leasesKept_step hop hev hturn h.1,
        undisturbed_step hev hturn h.1 h.2⟩) hd
      ⟨⟨hs, .nil, fun _ _ h => nomatch h⟩, System.Each.nil⟩
  exact ⟨hkept.1.settled.exclusive, hkept.2⟩

/-- A run that is parked, woken, and taken up by a second worker. -/
theorem lease_exclusive_sample : ∃ d : Config Calls Exn (Estate × List servingSite.Event),
    (leases d.shared.2).map (fun l => (l.holder.thread, l.ended)) = [(2, false), (0, true)] ∧
      Exclusive d.shared.1.now (leases d.shared.2) ∧ Undisturbed d.shared.2 := by
  have hplay : (servingSite.service.recorded.playIf
      (fun t o ch s => @Op.inTurn servingSite t o ch s)
      (Config.idle (servingEstate .approval, []))
      ((.start servingTurn :: List.replicate 27 (.op 0 smooth)) ++
        ((.start (ActionService.decideAction 0 (servingAnswer true)) ::
          List.replicate 1 (.op 1 smooth)) ++
            (.start servingTurn :: List.replicate 3 (.op 2 smooth))))).map (fun d =>
              (leases d.shared.2).map (fun l => (l.holder.thread, l.ended))) =
      some [(2, false), (0, true)] := by
    decide +kernel
  obtain ⟨d, hd, hends⟩ := Option.map_eq_some_iff.mp hplay
  refine ⟨d, hends, lease_exclusive servingSite (servingEstate .approval) rfl d
    (System.playIf_reaches _ (fun t o ch s h => @Op.inTurn_holds servingSite t o ch s h) ?_ hd)⟩
  exact .append (.start (Service.work _ _ _) .ops) (.append (.start (Service.decide _ _ rfl rfl) .ops)
    (.start (Service.work _ _ _) .ops))

/-- A turn of one of several workers. -/
def turnOf (worker : String) : Prog Unit := RunService.workOnce servingSite worker false false

/-- The first worker claims the job and loses its database; its lease expires, and the second
worker claims the job; the first puts it back on the queue, and the third claims it. -/
def overtaken : List servingSite.service.recorded.Move :=
  [.start (turnOf "worker-1"), .op 0 smooth, .op 0 smooth, .op 0 smooth,
    .op 0 { smooth with fault := some (.other "OperationalError" "connection lost") },
    .start (turnOf "worker-2"), .op 1 { smooth with elapsed := minutes 6 }, .op 1 smooth,
    .op 1 smooth, .op 0 smooth,
    .start (turnOf "worker-3"), .op 2 { smooth with elapsed := 3000000 }, .op 2 smooth,
    .op 2 smooth]

/-- **Two workers can hold one job.** -/
theorem lease_shared : ¬ ∀ (site : Site) (s : Estate), s.db.Numbered →
    ∀ d : Config Calls Exn (Estate × List site.Event),
      site.service.recorded.Reaches (System.anyStep _) (Config.idle (s, [])) d →
        Exclusive d.shared.1.now (leases d.shared.2) ∧ Undisturbed d.shared.2 := by
  intro hall
  have hplay : (servingSite.service.recorded.play (Config.idle (servingEstate .approval, []))
      overtaken).map (fun d => decide (Exclusive d.shared.1.now
        (leases (d.shared.2 : List servingSite.Event)))) = some false := by
    decide +kernel
  obtain ⟨d, hd, hends⟩ := Option.map_eq_some_iff.mp hplay
  refine of_decide_eq_false hends (hall servingSite (servingEstate .approval) rfl d
    (System.play_reaches _ (fun p hp => ?_) hd)).1
  simp only [overtaken, List.mem_cons, System.Move.start.injEq, List.not_mem_nil, reduceCtorEq,
    false_or, or_false] at hp
  rcases hp with rfl | rfl | rfl
  all_goals exact Service.work _ _ _

end L1Agent
