import L1Agent.Engine.Executor

/-! # No unverified resolution

Whatever the step list is, whatever the steps answer, and whatever the journal
holds for them, a run that ends `resolved` went through a VERIFY step that passed,
then through notes only, then through a RESOLVE step.

The guard is in four places: the events that `advance` feeds (`advance_verified`,
`advance_resolved`), the table (`transition_verified`, `transition_resolved`), the
`verifiedBy` that every other state clears, and the summary's own check.
`Loop.Backing` is the invariant of the walk.

The step is `backing_next`, the run lemma `runSteps_resolution`, and `no_unverified_resolution` the
statement about an execution with whatever journal it was given.
-/
namespace L1Agent
open Interleaving

/-- The steps gone through end with a VERIFY step of this id that passed, and
notes after it. -/
def Backed (went : List Visit) (verifiedBy : String) : Prop :=
  ∃ before verify notes result, went = before ++ verify :: notes ∧
    verify.step.type? = some .verify ∧ verify.step.stepId = verifiedBy ∧
    verify.result = some result ∧ result.status = .success ∧
    ∀ u ∈ notes, u.step.type? = some .note

/-- The steps gone through end with a passed VERIFY step of this id, then notes,
then a RESOLVE step. -/
def Resolution (went : List Visit) (verifiedBy : String) : Prop :=
  ∃ front resolve, went = front ++ [resolve] ∧ resolve.step.type? = some .resolve ∧
    Backed front verifiedBy

theorem Backed.note {went : List Visit} {verifiedBy : String} (v : Visit)
    (h : Backed went verifiedBy) (hv : v.step.type? = some .note) :
    Backed (went ++ [v]) verifiedBy := by
  obtain ⟨before, verify, notes, result, rfl, h1, h2, h3, h4, h5⟩ := h
  refine ⟨before, verify, notes ++ [v], result, by simp, h1, h2, h3, h4, fun u hu => ?_⟩
  rcases List.mem_append.mp hu with hu | hu
  · exact h5 u hu
  · rw [List.mem_singleton.mp hu]
    exact hv

theorem backed_verify (went : List Visit) (v : Visit) {result : StepResult}
    (ht : v.step.type? = some .verify) (hr : v.result = some result)
    (hs : result.status = .success) : Backed (went ++ [v]) v.step.stepId :=
  ⟨went, v, [], result, rfl, ht, rfl, hr, hs, fun _ h => absurd h List.not_mem_nil⟩

namespace Executor
variable {eng : Engine} {inc : Incident} {steps : List SOPStep} {values : List (String × Json)}
  {journaled : Bool} {step : SOPStep} {result : StepResult} {state : RunState} {p : Position}

/-- Only a VERIFY step changes the state when it starts. -/
theorem started_other {s : RunState} (ht : step.type? ≠ some .verify)
    (h : started step s = .ok state) : state = s := by
  rw [started, if_neg fun hc => ht hc.1] at h
  cases h
  rfl

/-- **The invariant of the walk**: what being verified, or resolved with a
verification on record, says about the steps gone through. -/
structure Loop.Backing (l : Loop) : Prop where
  verified : l.state = .verified → Backed l.went l.verifiedBy
  resolved : l.state = .resolved → l.verifiedBy ≠ "" → Resolution l.went l.verifiedBy

/-- **One round keeps the invariant**, whatever the result is and wherever it comes
from. -/
theorem backing_next {l : Loop} (hl : l.Backing) (hs : started step l.state = .ok state)
    (h : advance eng step result state l.verifiedBy l.reason = .ok p) :
    (l.next journaled step result p).Backing := by
  rcases advance_cases h with ⟨hend, hres⟩ | ⟨ht, hv, hp, hby⟩ | ⟨ht, hr, hp, hby, -⟩ |
    ⟨ht, hgo, hp, hby, -⟩ | ⟨-, -, -, hp, -, -⟩ | ⟨-, -, -, -, hp, -⟩
  · refine ⟨fun hv => ?_, fun hv hne => absurd (hres hv) hne⟩
    rw [show p.state = .verified from hv] at hend
    cases hend
  · have hstate : l.state = .verified := by rw [← hv, started_other (by simp [ht]) hs]
    refine ⟨fun hv' => ?_, fun _ _ => ?_⟩
    · rw [show p.state = .verified from hv'] at hp
      cases hp
    · have hback := hl.verified hstate
      rw [← hby] at hback
      exact ⟨l.went, _, rfl, ht, hback⟩
  · refine ⟨fun _ => ?_, fun hv' => ?_⟩
    · have hback := backed_verify l.went ⟨step, l.state, some result⟩ ht rfl hr
      rw [show (l.next journaled step result p).verifiedBy = step.stepId from hby]
      exact hback
    · rw [show p.state = .resolved from hv'] at hp
      cases hp
  · have hstate : state = l.state := started_other (by simp [ht]) hs
    refine ⟨fun hv => ?_, fun hv' => ?_⟩
    · have hv : state = .verified := hp ▸ hv
      have hback := (hl.verified (hstate ▸ hv)).note ⟨step, l.state, some result⟩ ht
      rw [show (l.next journaled step result p).verifiedBy = l.verifiedBy from hby hv]
      exact hback
    · have hv' : state = .resolved := hp ▸ hv'
      rcases hgo with hgo | hgo
      · rw [hgo] at hv'
        cases hv'
      · rw [hgo] at hv'
        cases hv'
  · refine ⟨fun hv => ?_, fun hv => ?_⟩
    · rw [show p.state = .verified from hv] at hp
      cases hp
    · rw [show p.state = .resolved from hv] at hp
      cases hp
  · refine ⟨fun hv => ?_, fun hv => ?_⟩
    · rw [show p.state = .verified from hv] at hp
      cases hp
    · rw [show p.state = .resolved from hv] at hp
      cases hp

/-- **The run lemma**: however the walk ends, a resolution with a verification on
record is one. -/
theorem runSteps_resolution (journal : Option RunJournal) :
    (runSteps eng inc steps values journal).Always fun r =>
      ∀ e, r = .ok e → e.state = .resolved → e.verifiedBy ≠ "" →
        Resolution e.went e.verifiedBy := by
  cases steps with
  | nil => rintro e ⟨⟩
  | cons first rest =>
    refine runLoop_always Loop.Backing (fun _ _ _ _ => True)
      (fun l step state _ _ => Program.Always.trivial fun _ _ _ => True.intro) ?_ ?_ ?_ ?_
      ⟨fun h => ?_, fun h => ?_⟩ ⟨List.nodup_nil, List.nil_subset _⟩ ?_
    · rintro l hl - e ⟨⟩ hs hne
      have hby : l.finish.verifiedBy = l.verifiedBy := if_pos hs
      rw [hby] at hne ⊢
      exact hl.resolved hs hne
    · rintro l - - - e ⟨⟩ hs
      cases hs
    · rintro l step result x - - - e ⟨⟩
    · exact fun l step result state p hl _ _ hs _ hp => backing_next hl hs hp
    · cases h
    · cases h
    · simp only [List.length_nil]
      omega

/-- A summary that was concluded as resolved says what the walk ended with. -/
theorem conclude_resolved {sop : SOP} {e : Ending} {s : ExecutionSummary}
    (h : conclude inc sop e = .ok s) (hs : s.outcome = some .resolved) :
    e.state = .resolved ∧ s.verifiedBy = e.verifiedBy ∧ s.stepResults = results e.went := by
  unfold conclude at h
  simp only at h
  split at h
  · cases h
  rename_i outcome hout
  simp only [ExecutionSummary.conclude, Option.isSome_none, Bool.false_eq_true, if_false] at h
  split at h
  · rename_i s' hs'
    split at hs'
    · cases hs'
      cases h
      have hst : outcome = .resolved := Option.some.inj hs
      subst hst
      exact ⟨outcomeOf_resolved hout, rfl, rfl⟩
    · cases hs'
  · split at h
    · simp only [checkOutcome, Except.mapError] at h
      cases h
      cases hs
    · cases h

/-- An exception is never concluded as resolved. -/
theorem settle_resolved {sop : SOP} {r : Except Fault Ending} {s : ExecutionSummary}
    (h : settle inc sop r = .ok s) (hs : s.outcome = some .resolved) :
    ∃ e, r = .ok e ∧ e.state = .resolved ∧ s.verifiedBy = e.verifiedBy ∧
      s.stepResults = results e.went := by
  obtain ⟨e, he, h⟩ := bind_eq_ok h
  have hc := conclude_resolved h hs
  cases r with
  | ok e' =>
    cases he
    exact ⟨e, rfl, hc⟩
  | error f =>
    exfalso
    simp only [caught] at he
    split at he
    · cases he
    · obtain ⟨state, -, he⟩ := bind_eq_ok he
      cases he
      exact s.verifiedBy_ne_empty hs hc.2.1

end Executor

/-- **No unverified resolution.**  For any step list, any answers and any journal, an
execution that ends `resolved` names in `verified_by` a VERIFY step that it went
through, that passed, and that was followed by notes only up to the RESOLVE step;
and nothing that is done to a summary makes it `resolved` with no such name. -/
theorem no_unverified_resolution (eng : Engine) (inc : Incident) (sop : SOP)
    (steps : List SOPStep) (values : List (String × Json)) (journal : Option RunJournal) :
    ((Executor.runSteps eng inc steps values journal).Always fun r =>
      ∀ s, Executor.settle inc sop r = .ok s → s.outcome = some .resolved →
        ∃ e, r = .ok e ∧ s.stepResults = results e.went ∧ Resolution e.went s.verifiedBy) ∧
    ∀ (s : ExecutionSummary) (ops : List ExecutionSummary.Op),
      (s.applyAll ops).outcome = some .resolved → (s.applyAll ops).verifiedBy ≠ "" := by
  refine ⟨(Executor.runSteps_resolution journal).mono fun r hr s hset hres => ?_,
    fun s ops h => (s.applyAll ops).verifiedBy_ne_empty h⟩
  obtain ⟨e, rfl, hstate, hby, hresults⟩ := Executor.settle_resolved hset hres
  refine ⟨e, rfl, hresults, ?_⟩
  rw [hby]
  exact hr e rfl hstate (hby ▸ s.verifiedBy_ne_empty hres)

end L1Agent
