import L1Agent.Service.Waking

/-! # Concluded runs

A run is concluded by several paths that never come to its action again: its ticket was taken by
somebody else, its SOP version is gone, its attempts are used up, or the attempt failed.  None of
them looks at the actions of the run.

While a run is concluded only when its actions have ended, and no late attempt decides on an
action of a run that is over, no action is left in flight (`none_in_flight`).
-/
namespace L1Agent
open Interleaving

/-- All actions of the run have ended. -/
def Db.Ended (db : Db) (runId : Nat) : Prop :=
  ∀ r ∈ db.actions.rows, r.runId = runId → r.status.isFinal = true

/-- **No action is left in flight by a concluded run.** -/
def Db.NoneInFlight (db : Db) : Prop :=
  ∀ run ∈ db.runs, run.outcome.isSome = true → db.Ended run.id

instance (db : Db) (runId : Nat) : Decidable (db.Ended runId) :=
  inferInstanceAs (Decidable (∀ r ∈ db.actions.rows, _))

instance (db : Db) : Decidable db.NoneInFlight :=
  inferInstanceAs (Decidable (∀ run ∈ db.runs, _))

/-- **The step leaves nothing behind.**  The first conclusion of a run comes when its actions
have ended; a decision about an action of a run that is over ends the action at once. -/
def Op.LeavesNothing (db : Db) : Op → Prop
  | .db c => match c with
    | .concludeRun job _ _ =>
      (∃ run ∈ db.runs, run.id = job.runId ∧ run.outcome = none) → db.Ended job.runId
    | .recordDecision d _ =>
      (∃ run ∈ db.runs, run.id = d.runId ∧ run.outcome.isSome = true) → d.status.isFinal = true
    | _ => True
  | _ => True

/-- A check of the condition. -/
def Op.leavesNothing (db : Db) : Op → Bool
  | .db c => match c with
    | .concludeRun job _ _ =>
      decide ((∃ run ∈ db.runs, run.id = job.runId ∧ run.outcome = none) → db.Ended job.runId)
    | .recordDecision d _ =>
      decide ((∃ run ∈ db.runs, run.id = d.runId ∧ run.outcome.isSome = true) →
        d.status.isFinal = true)
    | _ => true
  | _ => true

theorem Op.leavesNothing_iff (db : Db) (o : Op) :
    o.leavesNothing db = true ↔ o.LeavesNothing db := by
  cases o with
  | db c =>
    cases c with
    | concludeRun => exact decide_eq_true_iff
    | recordDecision => exact decide_eq_true_iff
    | _ => exact iff_of_true rfl trivial
  | _ => exact iff_of_true rfl trivial

instance (db : Db) (o : Op) : Decidable (o.LeavesNothing db) :=
  decidable_of_iff _ (o.leavesNothing_iff db)

section
variable {site : Site} {now pick : Nat} {db db' : Db} {runId : Nat}

/-- An action that has ended stays so, whatever a transaction does. -/
theorem Db.Ended.moved {c : DbCall} (h : db.Ended runId) (hop : Op.OfService (.db c))
    (hmoved : ActionsMoved db now c db'.actions) : db'.Ended runId := by
  intro r' hr' hrun
  have hget := ActionTable.get?_of_mem hr'
  cases hold : db.actions.get? r'.id with
  | none =>
    rw [(hmoved r'.id).2 hold] at hget
    cases hget
  | some r =>
    obtain ⟨x, hx, hmove⟩ := (hmoved r'.id).1 r hold
    obtain rfl : r' = x := Option.some_inj.mp (hget.symm.trans hx)
    have hsubject : r'.subject.runId = r.subject.runId := by rw [hmove.subject_eq]
    have hsame : r'.runId = r.runId := hsubject
    have hfinal := h r (ActionTable.get?_mem hold) (hsame.symm.trans hrun)
    rw [((hop.change hmove).later.final hfinal).1]
    exact hfinal

/-- A decision adds an action that has ended, or one of another run. -/
theorem Db.Ended.added {d : Decision} {incidentId : Nat} (h : db.Ended runId)
    (hadd : db.actions.add (d.toRow db.actions.rows.length incidentId) = .ok db'.actions)
    (hd : d.runId = runId → d.status.isFinal = true) : db'.Ended runId := by
  intro r hr hrun
  rw [ActionTable.ofRows_ok hadd] at hr
  rcases List.mem_append.mp hr with hr | hr
  · exact h r hr hrun
  · cases List.mem_singleton.mp hr
    exact hd hrun

/-- **The runs that are over** were over before, or are concluded by this transaction. -/
theorem DbCall.run_over {c : DbCall} {v : c.Val} (h : c.run site now pick db = .ok (v, db'))
    {run : RunRow} (hrun : run ∈ db'.runs) (hover : run.outcome.isSome = true) :
    ∃ old ∈ db.runs, old.id = run.id ∧ (old.outcome.isSome = true ∨
      old.outcome = none ∧ ∃ job conclusion status,
        c = .concludeRun job conclusion status ∧ job.runId = run.id) := by
  rcases DbCall.run_runs h with ⟨f, hruns, hf⟩ | ⟨actor, source, incident, rfl⟩
  · rw [hruns] at hrun
    obtain ⟨old, hold, rfl⟩ := List.mem_map.mp hrun
    refine ⟨old, hold, (hf old hold).id_eq.symm, ?_⟩
    generalize hto : f old = run' at *
    have hmove : old.Move c run' := by
      rw [← hto]
      exact hf old hold
    cases hmove with
    | kept c run' hid hincident houtcome =>
      rw [houtcome] at hover
      exact .inl hover
    | concluded job conclusion status hid hnone =>
      exact .inr ⟨hnone, job, conclusion, status, rfl, hid.symm⟩
  · simp only [DbCall.run, L1Agent.ingest] at h
    split at h
    · cases h
      exact ⟨run, hrun, rfl, .inl hover⟩
    · cases h
      rcases List.mem_append.mp hrun with hrun | hrun
      · exact ⟨run, hrun, rfl, .inl hover⟩
      · cases List.mem_singleton.mp hrun
        cases hover

end

/-- **A step that leaves nothing behind** leaves no action in flight. -/
theorem noneInFlight_step {site : Site} {t : Nat} {o : Op} {ch : Choice} {s s' : Estate}
    {answer : Except Exn o.Val} (hop : o.OfService) (hleaves : o.LeavesNothing s.db)
    (hstep : o.step site t ch s = some (answer, s')) (h : s.db.NoneInFlight) :
    s'.db.NoneInFlight := by
  rcases Op.step_db hstep with hsame | ⟨c, v, rfl, hrun⟩
  · rw [hsame]
    exact h
  intro run hmem hover
  obtain ⟨old, hold, hid, hwas⟩ := DbCall.run_over hrun hmem hover
  have hended : s.db.Ended run.id := by
    rcases hwas with hwas | ⟨hnone, job, conclusion, status, rfl, hjob⟩
    · rw [← hid]
      exact h old hold hwas
    · rw [← hjob]
      exact hleaves ⟨old, hold, hid.trans hjob.symm, hnone⟩
  rcases DbCall.run_actions hrun with hmoved | ⟨d, payload, found, rfl, -, hadd⟩
  · exact hended.moved hop hmoved
  · refine hended.added hadd fun hd => hleaves ?_
    rcases hwas with hwas | ⟨-, _, _, _, hcall, -⟩
    · exact ⟨old, hold, hid.trans hd.symm, hwas⟩
    · cases hcall

/-- **No action is left in flight by a concluded run**, over every run of a deployment whose
steps leave nothing behind. -/
theorem none_in_flight (site : Site) (s : Estate) (hs : s.db.NoneInFlight)
    (d : Config Calls Exn Estate)
    (hd : site.service.Reaches (fun _ o _ s => o.LeavesNothing s.db) (Config.idle s) d) :
    d.shared.db.NoneInFlight :=
  service_keep (I := fun s => s.db.NoneInFlight)
    (fun _ _ _ _ _ _ hop hleaves hstep h => noneInFlight_step hop hleaves hstep h) hd hs

/-- A run that is concluded when its action has been verified. -/
theorem none_in_flight_sample : ∃ d : Config Calls Exn Estate,
    d.shared.db.runs.map (·.outcome) = [some "resolved"] ∧ d.shared.db.NoneInFlight := by
  have hplay : (servingSite.service.playIf (fun _ o _ s => decide (o.LeavesNothing s.db))
      (Config.idle (servingEstate .automatic))
      (.start servingTurn :: List.replicate 44 (.op 0 smooth))).map (fun d =>
        d.shared.db.runs.map (·.outcome)) = some [some "resolved"] := by
    decide +kernel
  obtain ⟨d, hd, hruns⟩ := Option.map_eq_some_iff.mp hplay
  exact ⟨d, hruns, none_in_flight servingSite (servingEstate .automatic) (by decide) d
    (System.playIf_reaches _ (fun _ _ _ _ h => of_decide_eq_true h) (servingTurn_starts 44) hd)⟩

/-- The same run with one attempt only. -/
def lastAttempt : Estate :=
  let e := servingEstate .automatic
  { e with
    db := { e.db with jobs := [{ id := 0, runId := 0, availableAt := 0, maxAttempts := 1 }] } }

/-- **An action can be left in flight.**  The worker dies while the write is under way; the next
one finds the attempts used up, and gives the run to a person without a look at its action. -/
theorem left_in_flight : ¬ ∀ (site : Site) (s : Estate), s.db.NoneInFlight →
    ∀ d : Config Calls Exn Estate,
      site.service.Reaches (System.anyStep _) (Config.idle s) d → d.shared.db.NoneInFlight := by
  intro hall
  have hplay : (servingSite.service.play (Config.idle lastAttempt)
      ((.start servingTurn :: List.replicate 28 (.op 0 smooth)) ++
        (.start servingTurn :: ([.op 1 { smooth with elapsed := minutes 6 }] ++
          List.replicate 5 (.op 1 smooth))))).map (fun d =>
            (d.shared.statuses, decide d.shared.db.NoneInFlight)) =
      some ([.executing], false) := by
    decide +kernel
  obtain ⟨d, hd, hends⟩ := Option.map_eq_some_iff.mp hplay
  have hleft : ¬ d.shared.db.NoneInFlight := of_decide_eq_false (Prod.mk.inj hends).2
  refine hleft (hall servingSite lastAttempt (by decide) d (System.play_reaches _ ?_ hd))
  exact (servingTurn_starts 28).append
    (.start (Service.work _ _ _) (.append (System.Starts.ops (n := 1)) .ops))

end L1Agent
