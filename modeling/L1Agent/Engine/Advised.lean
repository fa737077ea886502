import L1Agent.Engine.Resume
import L1Agent.Engine.Simulation

/-! # A model and the steps of an SOP

A model may locate values for an SOP that makes no change.  For one that does, `_bind` neither
asks it nor takes up what an earlier attempt was given (`bindAll_acts`), so that the whole
execution is the one without a model (`executeSop_acts`); and an SOP without an ACTION step
never comes to the action pipeline (`executeSop_fits`).

`executeSop_issues` lists what an execution calls at all (`Calling`), so that a condition on the
calls is shown for an SOP once and holds of each of its runs.
-/
namespace L1Agent
open Interleaving

/-- What an execution of the SOP may call. -/
def EngineOp.Fits (sop : SOP) : EngineOp → Prop
  | .perform _ => sop.acts = true
  | .extract _ | .recordAdvised _ => sop.acts = false
  | _ => True

namespace Executor
variable {eng : Engine} {inc : Incident} {sop : SOP}

/-- The values that the SOP's own patterns find. -/
def boundByRules (eng : Engine) (inc : Incident) (sop : SOP) :
    Except Exn (List (String × Json)) :=
  match eng.bindWhatCanBe sop inc with
  | .error e => .error e
  | .ok bound =>
    match bound.failures with
    | [] => .ok bound.values
    | (_, first) :: _ => .error (.parameter first)

/-- **No value that a model proposed is bound in an SOP that acts.** -/
theorem bindAll_acts (h : sop.acts = true) (journal : Option RunJournal) (advisor : Bool) :
    bindAll eng inc sop journal advisor = .ofExcept (boundByRules eng inc sop) := by
  unfold bindAll boundByRules
  cases eng.bindWhatCanBe sop inc with
  | error e => rfl
  | ok bound =>
    obtain ⟨values, failures, notFound⟩ := bound
    cases failures with
    | nil => rfl
    | cons failure failures =>
      show (if sop.acts = true ∨ _ then Program.raise (Exn.parameter failure.2) else _) = _
      rw [if_pos (.inl h)]
      rfl

/-- **An SOP that acts is executed as it is without a model**, whatever values are stored. -/
theorem executeSop_acts (h : sop.acts = true) (completed : List (String × StepResult))
    (advised : List (String × String)) (advisor : Bool) :
    executeSop eng inc sop (some { completed, advised }) advisor =
      executeSop eng inc sop (some { completed }) false := by
  unfold executeSop body bindAndRender
  simp only [bindAll_acts h]
  rfl

/-! ## What an execution calls -/

theorem issues_request {P : EngineOp → Prop} {o : EngineOp} (h : P o) :
    (request o).Issues P := ⟨h, fun x => Program.issues_ofExcept x⟩

/-- **The calls that an execution of the SOP can make** satisfy `P`. -/
structure Calling (sop : SOP) (P : EngineOp → Prop) : Prop where
  connectors : P .connectors
  extract : sop.acts = false → ∀ askable, P (.extract askable)
  advised : sop.acts = false → ∀ values, P (.recordAdvised values)
  started : ∀ source ∈ sop.steps, ∀ step, step.shape = source.shape → P (.stepStarted step)
  completed : ∀ source ∈ sop.steps, ∀ step, step.shape = source.shape →
    ∀ result, P (.stepCompleted step result)
  reads : ∀ step o, Reads step o → P o
  perform : ∀ source ∈ sop.steps, ∀ step, step.shape = source.shape →
    step.type? = some .action → P (.perform step)

variable {P : EngineOp → Prop}

theorem bindAll_issues (hP : Calling sop P) {journal : Option RunJournal} {advisor : Bool} :
    (bindAll eng inc sop journal advisor).Issues P := by
  by_cases hacts : sop.acts = true
  · rw [bindAll_acts hacts]
    exact Program.issues_ofExcept _
  have hacts : sop.acts = false := by simpa using hacts
  have hC := Program.issues_compositional (E := EngineCalls) (ε := Exn) P
  unfold bindAll
  refine hC.bind (hC.ofExcept _) fun bound => ?_
  split
  · exact hC.ret _
  refine Program.Issues.ite (fun _ => hC.raise _) fun _ => ?_
  extract_lets stored known rest
  have hrest : ∀ located, (rest located).Issues P := by
    refine fun located => hC.bind (hC.ofExcept _) fun advised => ?_
    refine Program.Issues.ite (fun _ => hC.bind (issues_request (hP.advised hacts _)) fun _ => ?_)
      fun _ => ?_
    · exact hC.ofExcept _
    · exact hC.ofExcept _
  refine Program.Issues.ite (fun _ => hrest _) fun _ => ?_
  exact Program.Issues.ite (fun _ => hC.bind (issues_request (hP.extract hacts _)) hrest)
    fun _ => hC.raise _

section
variable {steps : List SOPStep} {values : List (String × Json)} {journaled : Bool}

theorem tell_issues {step : SOPStep} {result : StepResult}
    (h : ∀ result, P (.stepCompleted step result)) : (tell journaled step result).Issues P := by
  have hC := Program.issues_compositional (E := EngineCalls) (ε := Exn) P
  unfold tell
  extract_lets rest
  have hrest : ∀ told, (rest told).Issues P :=
    fun _ => hC.bind (hC.ofExcept _) fun _ => hC.ret _
  refine Program.Issues.ite (fun _ => hC.bind (hC.ofExcept _) fun _ => ?_) fun _ => hrest ()
  exact hC.bind (issues_request (h _)) hrest

/-- A step comes to the pipeline only if it is an ACTION step. -/
theorem executeStarted_issues (hP : Calling sop P) {l : Loop} {state : RunState} {step : SOPStep}
    (hstep : ∃ source ∈ sop.steps, step.shape = source.shape) :
    (executeStarted eng inc values journaled l state step).Issues P := by
  have hC := Program.issues_compositional (E := EngineCalls) (ε := Exn) P
  obtain ⟨source, hsource, hshape⟩ := hstep
  unfold executeStarted
  have hcalls : (executeStep eng inc (results l.went) values state step).Issues P := by
    refine executeStep_calls.mono fun o ho => ?_
    rcases ho with hreads | ⟨rfl, haction⟩
    · exact hP.reads step o hreads
    · exact hP.perform source hsource step hshape haction
  have hstarted := hP.started source hsource step hshape
  exact Program.Issues.ite (fun _ => hC.bind (issues_request hstarted) fun _ => hcalls)
    fun _ => hcalls

/-- The induction is on the rounds left; each round executes one step of the list. -/
theorem runLoop_issues (hP : Calling sop P)
    (hsteps : ∀ step ∈ steps, ∃ source ∈ sop.steps, step.shape = source.shape) {n : Nat}
    {l : Loop} :
    (runLoop eng inc steps values journaled n l).Issues P := by
  induction n generalizing l with
  | zero => exact True.intro
  | succ n ih =>
    unfold runLoop
    split
    · exact True.intro
    split
    · exact ((Program.issues_ofExcept _).mapExn _).bind fun _ => True.intro
    · rename_i step hcur
      obtain ⟨-, -, -, hmem⟩ := current_eq_some hcur
      refine ((Program.issues_ofExcept _).mapExn _).bind fun state => Program.Issues.bind ?_
        fun result => ((Program.issues_ofExcept _).mapExn _).bind fun p => ih
      unfold obtainResult
      split
      · exact True.intro
      · have hstep := hsteps step hmem
        obtain ⟨source, hsource, hshape⟩ := hsteps step hmem
        have hcompleted := hP.completed source hsource step hshape
        exact ((executeStarted_issues hP hstep).mapExn _).bind fun result =>
          ((tell_issues hcompleted).mapExn _).bind fun _ => True.intro

end

/-- The steps that an execution goes through are the SOP's, rendered. -/
theorem bindAndRender_steps {journal : Option RunJournal} {advisor : Bool} :
    (bindAndRender eng inc sop journal advisor).Always fun r => ∀ values steps,
      r = .ok (.ok (values, steps)) → steps.map SOPStep.shape = sop.steps.map SOPStep.shape := by
  unfold bindAndRender
  have hbound : (bindAll eng inc sop journal advisor >>= fun values =>
      Program.ofExcept (sop.steps.mapM (renderStep eng values)) >>= fun steps =>
        pure (values, steps)).Always fun r => ∀ values steps, r = .ok (values, steps) →
          steps.map SOPStep.shape = sop.steps.map SOPStep.shape := by
    refine Program.Always.bind (Program.Always.trivial fun r => ?_)
    cases r with
    | error e =>
      rintro values steps ⟨⟩
    | ok values =>
      refine Program.Always.bind (ofExcept_always ?_)
      cases hsteps : sop.steps.mapM (renderStep eng values) with
      | error e =>
        rintro values steps ⟨⟩
      | ok steps =>
        rintro _ _ ⟨⟩
        exact renderSteps_shape hsteps
  refine Program.Always.bind (Program.Always.attempt (hbound.mono fun r hr => ?_))
  match r with
  | .ok _ =>
    rintro values steps ⟨⟩
    exact hr values steps rfl
  | .error (.parameter _) | .error (.suspended _) | .error (.expression _)
  | .error (.other _ _) =>
    rintro values steps ⟨⟩

/-- **What an execution calls** is about the steps of its SOP. -/
theorem executeSop_issues (hP : Calling sop P) {journal : Option RunJournal} {advisor : Bool} :
    (executeSop eng inc sop journal advisor).Issues P := by
  have hC := Program.issues_compositional (E := EngineCalls) (ε := Exn) P
  have hF := Program.issues_compositional (E := EngineCalls) (ε := Fault) P
  have hnone : ∀ {α β : Type} (r : Except Exn α) (f : α → Program EngineCalls Fault β),
      (∀ a, (f a).Issues P) → ((binding (Program.ofExcept r)).bind f).Issues P :=
    fun r f hf => hF.bind ((Program.issues_ofExcept r).mapExn _) hf
  unfold executeSop body
  refine (Program.Issues.attempt ?_).bind fun r => Program.issues_ofExcept _
  split
  · refine @Program.Compositional.bind_of_always _ _ _ hF _ _ (binding _) _
      (fun bound => ∀ values steps, bound = .ok (values, steps) →
        steps.map SOPStep.shape = sop.steps.map SOPStep.shape) ⟨.binding, .other "" "", []⟩
      (Program.Issues.mapExn _ ?_) (Program.Always.mapExn (bindAndRender_steps.mono
        fun r hr => ?_)) fun bound hbound => ?_
    · unfold bindAndRender
      refine Program.Issues.bind ((bindAll_issues hP).bind fun values =>
        (Program.issues_ofExcept _).bind fun steps => hC.ret _).attempt fun r => ?_
      split
      · exact True.intro
      · exact True.intro
      · exact True.intro
    · cases r with
      | ok bound =>
        rintro _ ⟨⟩ values steps rfl
        exact hr values steps rfl
      | error e => rintro _ ⟨⟩
    · split
      · exact hnone _ _ fun state => True.intro
      · rename_i values steps
        have hshape := hbound values steps rfl
        refine hnone _ _ fun state => Program.Issues.bind
          ((issues_request hP.connectors).mapExn _) fun _ => ?_
        unfold runSteps
        split
        · exact True.intro
        · refine runLoop_issues hP fun step hstep => ?_
          obtain ⟨source, hsource, heq⟩ := mem_of_shape hshape hstep
          exact ⟨source, hsource, heq.symm⟩
  · exact hnone _ _ fun _ => True.intro

/-- **No step of an SOP without an ACTION step** comes to the pipeline, and a model is asked for
such an SOP only. -/
theorem executeSop_fits {journal : Option RunJournal} {advisor : Bool} :
    (executeSop eng inc sop journal advisor).Issues (EngineOp.Fits sop) := by
  refine executeSop_issues ⟨True.intro, fun hacts _ => hacts, fun hacts _ => hacts,
    fun _ _ _ _ => True.intro, fun _ _ _ _ _ => True.intro, ?_, ?_⟩
  · rintro step _ ⟨name, parameters, attempt, rfl⟩
    exact True.intro
  · intro source hsource step hshape haction
    refine List.any_eq_true.mpr ⟨source, hsource, ?_⟩
    rw [type_of_shape hshape.symm, haction]
    rfl

end Executor
end L1Agent
