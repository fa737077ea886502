import Mathlib.Data.List.Chain
import L1Agent.Engine.Executor

/-! # The validator's graph analysis simulates the engine

`stepEdges` and `verifiedFlagsOnEntry` on one side, `runSteps` and the state
machine on the other.  For an SOP without problems the walk moves along the edge
that `stepEdges` gives for the step and its result (`resultEdge`), and the flag
that the analysis computes along this path (`pathFlags`) is true exactly where the
state machine is `verified` on entry.  That the walk never comes back to a step,
never falls off the list and enters a RESOLVE step only when verified follows from
what the validator established about the graph (`GraphOk`).

The results are any that the handlers can give (`Possible`): whatever the
connectors, the action pipeline or a failing call answer.  Recorded results are
covered too, since the journal records nothing else.

The step of the simulation is `advance_edge`, its invariant `Loop.OnPath`, kept by a round
(`onPath_next`) and by the walk (`runSteps_simulated`).  `validated_sop_simulates` is the statement,
for every step list without problems, every journal of possible results and all answers.
-/
namespace L1Agent
open Interleaving Digraph

/-! ## Results a step can have -/

/-- What every result of executing a step satisfies. -/
structure Possible (step : SOPStep) (result : StepResult) : Prop where
  gated : step.requiresApproval = true → result = Executor.approvalGate step
  escalates : step.type? = some .escalate → step.requiresApproval = false →
    result.status = .escalated ∨ result.status = .error
  branch : result.recommendedNextStep ≠ "" → step.type? = some .decision ∧
    (result.recommendedNextStep = step.onSuccess ∨ result.recommendedNextStep = step.onFailure)

/-- A result that names no next step, of a step that is no ESCALATE step. -/
theorem possible_plain {step : SOPStep} {result : StepResult}
    (happ : step.requiresApproval = false) (ht : step.type? ≠ some .escalate)
    (hb : result.recommendedNextStep = "") : Possible step result where
  gated h := by simp [happ] at h
  escalates h _ := absurd h ht
  branch h := absurd hb h

namespace Executor
variable {eng : Engine} {inc : Incident} {done : List StepResult}
  {values : List (String × Json)} {step : SOPStep} {state : RunState} {result : StepResult}

theorem handleNote_branch (h : handleNote step = .ok result) :
    result.recommendedNextStep = "" := by
  obtain ⟨text, -, h⟩ := bind_eq_ok h
  obtain ⟨shown, -, h⟩ := bind_eq_ok h
  cases h
  rfl

theorem handleEscalate_status (h : handleEscalate step = .ok result) :
    result.recommendedNextStep = "" ∧ result.status = .escalated := by
  obtain ⟨reason, -, h⟩ := bind_eq_ok h
  obtain ⟨text, -, h⟩ := bind_eq_ok h
  obtain ⟨shown, -, h⟩ := bind_eq_ok h
  cases h
  exact ⟨rfl, rfl⟩

theorem handleResolve_branch (h : handleResolve step state = .ok result) :
    result.recommendedNextStep = "" := by
  obtain ⟨text, -, h⟩ := bind_eq_ok h
  simp only at h
  split at h
  · obtain ⟨shown, -, h⟩ := bind_eq_ok h
    cases h
    rfl
  · cases h
    rfl

theorem handleDecision_branch (h : handleDecision eng inc done values step = .ok result) :
    result.recommendedNextStep = "" ∨ result.recommendedNextStep = step.onSuccess ∨
      result.recommendedNextStep = step.onFailure := by
  obtain ⟨rule, -, h⟩ := bind_eq_ok h
  simp only at h
  split at h
  · cases h
    exact Or.inl rfl
  · cases h
  · rename_i takeSuccess _
    cases h
    cases takeSuccess with
    | true => exact Or.inr (Or.inl rfl)
    | false => exact Or.inr (Or.inr rfl)

/-- The result names no next step. -/
def Plain (r : Except Exn StepResult) : Prop :=
  ∀ result, r = .ok result → result.recommendedNextStep = ""

theorem plain_error (e : Exn) : Plain (.error e) := by
  rintro result ⟨⟩

theorem plain_ok {result : StepResult} (h : result.recommendedNextStep = "") :
    Plain (.ok result) := by
  rintro _ ⟨⟩
  exact h

theorem handleAdapter_branch : (handleAdapter eng step).Always Plain := by
  rintro (e | a)
  · exact plain_error e
  · change (if a.status = .error then _ else _ : Engine.Prog StepResult).Always Plain
    split
    · exact plain_ok rfl
    · exact plain_ok rfl

theorem handleAction_branch : (handleAction eng step).Always Plain := by
  unfold handleAction
  split
  · rintro (e | a)
    · exact plain_error e
    · exact plain_ok rfl
  · exact plain_ok rfl

/-- The induction is on the number of reads left: each ends the step or goes on to
the next. -/
theorem verifyReads_branch {check : String} {checkParams assertion : Json}
    {ctx : List (String × Json)} {n attempt : Nat} {lastError tool : String}
    {last : Option AdapterResult} :
    (verifyReads eng step check checkParams assertion ctx n attempt lastError last tool).Always
      Plain := by
  induction n generalizing attempt lastError tool last with
  | zero => exact plain_ok rfl
  | succ n ih =>
    rintro (e | a)
    · exact plain_error e
    · change (if a.status = .error then _ else _ : Engine.Prog StepResult).Always Plain
      split
      · exact plain_ok rfl
      split
      · exact ih
      split
      · exact plain_ok rfl
      · exact ih
      · exact ih
      · exact plain_error _

theorem handleVerify_branch : (handleVerify eng inc done values step).Always Plain := by
  refine Program.Always.bind (ofExcept_always ?_)
  cases param step.parameters "check" (.str "") with
  | error e => exact plain_error e
  | ok named =>
    simp only
    split
    · exact verifyReads_branch
    · exact plain_error _
    · exact plain_error _

/-- Every handler but those of DECISION and ESCALATE names no next step. -/
theorem dispatch_branch (hd : step.type? ≠ some .decision) (he : step.type? ≠ some .escalate) :
    (dispatch eng inc done values state step).Always Plain := by
  unfold dispatch
  split
  · exact ofExcept_always fun result h => handleNote_branch h
  · rename_i ht
    exact absurd ht hd
  · exact handleVerify_branch
  · rename_i ht
    exact absurd ht he
  · exact ofExcept_always fun result h => handleResolve_branch h
  · exact handleAction_branch
  · exact plain_ok rfl
  · exact handleAdapter_branch

/-- **Executing a step gives a possible result**, whatever is answered. -/
theorem executeStep_possible : (executeStep eng inc done values state step).Always fun r =>
    ∀ result, r = .ok result → Possible step result := by
  unfold executeStep
  split
  · rename_i happ
    rintro result ⟨⟩
    exact
      { gated := fun _ => rfl
        escalates := fun _ hno => by simp [happ] at hno
        branch := fun hb => absurd rfl hb }
  rename_i happ
  have happ : step.requiresApproval = false := by simpa using happ
  have hfail : ∀ e : Exn, (if e.isSuspended then throw e
      else pure (errorResult eng step s!"{e.kind}: {e.message}" step.stepType) :
        Engine.Prog StepResult).Always fun r => ∀ result, r = .ok result → Possible step result := by
    intro e
    split
    · rintro result ⟨⟩
    · rintro result ⟨⟩
      exact
        { gated := fun h => by simp [happ] at h
          escalates := fun _ _ => Or.inr rfl
          branch := fun hb => absurd rfl hb }
  refine Program.Always.tryCatch ?_
  by_cases hd : step.type? = some .decision
  · unfold dispatch
    rw [hd]
    refine ofExcept_always ?_
    cases h : handleDecision eng inc done values step with
    | error e => exact hfail e
    | ok result =>
      rintro _ ⟨⟩
      have hb := handleDecision_branch h
      exact
        { gated := fun h => by simp [happ] at h
          escalates := fun ht => by simp [hd] at ht
          branch := fun hne => ⟨hd, hb.resolve_left hne⟩ }
  by_cases he : step.type? = some .escalate
  · unfold dispatch
    rw [he]
    refine ofExcept_always ?_
    cases h : handleEscalate step with
    | error e => exact hfail e
    | ok result =>
      rintro _ ⟨⟩
      obtain ⟨hb, hs⟩ := handleEscalate_status h
      exact
        { gated := fun h => by simp [happ] at h
          escalates := fun _ _ => Or.inl hs
          branch := fun hne => absurd hb hne }
  · refine (dispatch_branch hd he).mono fun r hr => ?_
    cases r with
    | error e => exact hfail e
    | ok result =>
      rintro _ ⟨⟩
      exact possible_plain happ he (hr result rfl)

end Executor

/-! ## The edge a step takes -/

/-- The edge that `step_edges` gives for a step and its result. -/
def resultEdge (step : SOPStep) (result : StepResult) : String × Option Bool :=
  if step.type? = some .verify then
    if result.status = .success then (step.onSuccess, some true) else (step.onFailure, some false)
  else if step.type? = some .note then (step.onSuccess, none)
  else if result.status = .fail then (step.onFailure, some false)
  else (if result.recommendedNextStep = "" then step.onSuccess else result.recommendedNextStep,
    some false)

/-- The flag with which the path goes on after a visit that was entered with
`flag`. -/
def nextFlag (flag : Bool) (v : Visit) : Bool :=
  match v.result with
  | some result => (resultEdge v.step result).2.getD flag
  | none => flag

/-- Each visit with the verified flag that the static analysis computes for the
path up to it. -/
def pathFlags (flag : Bool) : List Visit → List (Visit × Bool)
  | [] => []
  | v :: went => (v, flag) :: pathFlags (nextFlag flag v) went

/-- The flag at the end of the path. -/
def flagAfter (went : List Visit) : Bool := went.foldl nextFlag false

theorem pathFlags_append (flag : Bool) (went : List Visit) (v : Visit) :
    pathFlags flag (went ++ [v]) = pathFlags flag went ++ [(v, went.foldl nextFlag flag)] := by
  induction went generalizing flag with
  | nil => rfl
  | cons u went ih => rw [List.cons_append, pathFlags, ih, pathFlags]; rfl

theorem mem_stepEdges_success {step : SOPStep} (happ : step.requiresApproval = false)
    (ht : (step.type?.map StepType.isTerminal).getD false = false) (hne : step.onSuccess ≠ "") :
    (step.onSuccess, if step.type? = some .verify then some true
      else if step.type? = some .note then none else some false) ∈ stepEdges step := by
  unfold stepEdges
  rw [if_neg (by simp [happ, ht])]
  split
  · exact List.mem_append_left _ (by simp)
  split
  · exact List.mem_append_left _ (by simp)
  · exact List.mem_map.mpr ⟨_, List.mem_filter.mpr ⟨by simp, by simpa using hne⟩, rfl⟩

theorem mem_stepEdges_failure {step : SOPStep} (happ : step.requiresApproval = false)
    (ht : (step.type?.map StepType.isTerminal).getD false = false) (hne : step.onFailure ≠ "") :
    (step.onFailure, some false) ∈ stepEdges step := by
  unfold stepEdges
  rw [if_neg (by simp [happ, ht])]
  split
  · exact List.mem_append_right _ (by simp)
  split
  · exact List.mem_append_right _ (by simp)
  · exact List.mem_map.mpr ⟨_, List.mem_filter.mpr ⟨by simp, by simpa using hne⟩, rfl⟩

namespace Executor
variable {eng : Engine} {step : SOPStep} {result : StepResult} {state entry : RunState}
  {verifiedBy : String} {reason : Json} {p : Position} {steps : List SOPStep}

/-- A result that ends the run whatever the step is. -/
theorem possible_held (hr : Possible step result)
    (h : advance eng step result state verifiedBy reason = .ok p)
    (hrun : p.state.isTerminal = false) :
    step.requiresApproval = false ∧ step.type? ≠ some .escalate := by
  have happ : step.requiresApproval = false := by
    by_contra hgate
    have hres := hr.gated (by simpa using hgate)
    subst hres
    have hpath : actionPath step (approvalGate step) = .ok .null := by
      unfold actionPath
      split <;> rfl
    rw [advance_held (Or.inr rfl) hpath h] at hrun
    cases hrun
  refine ⟨happ, fun ht => ?_⟩
  have hpath : actionPath step result = .ok .null := by
    unfold actionPath
    rw [if_neg (by simp [ht])]
  rw [advance_held (hr.escalates ht happ).symm hpath h] at hrun
  cases hrun

/-- **The executor takes the edge that the validator follows**, and its state is
`verified` afterwards exactly when the flag is true. -/
theorem advance_edge (hg : GraphOk steps) (hmem : step ∈ steps) (hr : Possible step result)
    (hentry : entry = .executing ∨ entry = .verified) (hs : started step entry = .ok state)
    (h : advance eng step result state verifiedBy reason = .ok p)
    (hrun : p.state.isTerminal = false) :
    resultEdge step result ∈ stepEdges step ∧ (resultEdge step result).1 = p.nextId ∧
    (p.state = .executing ∨ p.state = .verified) ∧
    (p.state = .verified ↔ (resultEdge step result).2.getD (decide (entry = .verified)) = true) := by
  obtain ⟨happ, hesc⟩ := possible_held hr h hrun
  have hgo := hg.goesOn step hmem happ
  have hterm : step.type? ≠ some .resolve →
      (step.type?.map StepType.isTerminal).getD false = false := by
    intro hres
    cases ht : step.type? with
    | none => rfl
    | some type => cases type <;> simp_all [StepType.isTerminal]
  rcases advance_cases h with ⟨hend, -⟩ | ⟨-, -, hp, -⟩ | ⟨ht, hok, hp, -, hn⟩ |
    ⟨ht, -, hp, -, hn⟩ | ⟨ht, hres, hbad, hp, hne, hn⟩ | ⟨ht, hres, hver, hok, hp, hn⟩
  · rw [hend] at hrun
    cases hrun
  · rw [hp] at hrun
    cases hrun
  · -- a passed VERIFY
    have hedge := mem_stepEdges_success happ (hterm (by simp [ht])) (hgo (hterm (by simp [ht])))
    rw [if_pos ht] at hedge
    rw [resultEdge, if_pos ht, if_pos hok]
    exact ⟨hedge, hn.symm, Or.inr hp, by simp [hp]⟩
  · -- a note
    have hver : step.type? ≠ some .verify := by simp [ht]
    have hedge := mem_stepEdges_success happ (hterm (by simp [ht])) (hgo (hterm (by simp [ht])))
    rw [if_neg hver, if_pos ht] at hedge
    rw [resultEdge, if_neg hver, if_pos ht]
    obtain rfl : state = entry := by
      rw [started, if_neg fun hc => hver hc.1] at hs
      cases hs
      rfl
    exact ⟨hedge, hn.symm, by rw [hp]; exact hentry, by simp [hp]⟩
  · -- a failure
    have hedge := mem_stepEdges_failure happ (hterm hres) hne
    have heq : resultEdge step result = (step.onFailure, some false) := by
      unfold resultEdge
      split at hbad
      · rename_i hver
        rw [if_pos hver, if_neg hbad]
      · rename_i hver
        rw [if_neg hver, if_neg ht, if_pos hbad]
    rw [heq]
    exact ⟨hedge, hn.symm, Or.inl hp, by simp [hp]⟩
  · -- a success, or the branch of a DECISION
    have heq : resultEdge step result = (p.nextId, some false) := by
      unfold resultEdge
      rw [if_neg hver, if_neg ht, if_neg hok]
      rcases hn with ⟨hb | hact, hn⟩ | ⟨hb, hn⟩
      · rw [if_pos hb, hn]
      · have hb : result.recommendedNextStep = "" := by
          by_contra hb
          have hd := (hr.branch hb).1
          rw [hact] at hd
          cases hd
        rw [if_pos hb, hn]
      · rw [if_neg hb, hn]
    have hsucc := mem_stepEdges_success happ (hterm hres) (hgo (hterm hres))
    rw [if_neg hver, if_neg ht] at hsucc
    have hedge : (p.nextId, some false) ∈ stepEdges step := by
      rcases hn with ⟨-, hn⟩ | ⟨hb, hn⟩
      · rw [hn]
        exact hsucc
      · rw [hn]
        rcases (hr.branch hb).2 with hbr | hbr
        · rw [hbr]
          exact hsucc
        · rw [hbr] at hb ⊢
          exact mem_stepEdges_failure happ (hterm hres) hb
    rw [heq]
    exact ⟨hedge, rfl, Or.inl hp, by simp [hp]⟩

end Executor

/-! ## The walk -/

/-- The visit moves on to the step with this id, along the edge of its step and
result. -/
def Moves (v : Visit) (nextId : String) : Prop :=
  ∃ result, v.result = some result ∧ resultEdge v.step result ∈ stepEdges v.step ∧
    (resultEdge v.step result).1 = nextId

/-- The steps gone through, as the static analysis of the steps foresees them. -/
structure Simulated (steps : List SOPStep) (went : List Visit) : Prop where
  /-- The walk starts at the first step. -/
  starts : ∀ v ∈ went.head?, ∀ first ∈ steps.head?, v.step.stepId = first.stepId
  /-- It moves only along the edges of the step and its result. -/
  moves : went.IsChain fun v w => Moves v w.step.stepId
  /-- No step id is visited twice. -/
  once : (went.map (·.step.stepId)).Nodup
  /-- The state is `verified` on entry exactly when the path's flag is true, and the
  analysis has found this flag for this step. -/
  flags : ∀ u ∈ pathFlags false went, (u.1.entry = .verified ↔ u.2 = true) ∧
    (u.1.step.stepId, u.2) ∈ verifiedFlagsOnEntry steps
  /-- A RESOLVE step is entered only while the state is `verified`. -/
  resolves : ∀ v ∈ went, v.step.type? = some .resolve → v.entry = .verified

theorem simulated_nil (steps : List SOPStep) : Simulated steps [] where
  starts := by simp
  moves := List.isChain_nil
  once := List.nodup_nil
  flags := by simp [pathFlags]
  resolves := by simp

namespace Executor
variable {eng : Engine} {inc : Incident} {values : List (String × Json)} {journaled : Bool}
  {steps : List SOPStep} {step : SOPStep} {result : StepResult} {state : RunState} {p : Position}

/-- Where a walk that has not ended is heading. -/
structure Loop.Heading (steps : List SOPStep) (l : Loop) : Prop where
  state : l.state = .executing ∨ l.state = .verified
  flag : l.state = .verified ↔ flagAfter l.went = true
  entered : (l.currentId, flagAfter l.went) ∈ verifiedFlagsOnEntry steps
  found : (stepIndex steps l.currentId).isSome
  last : ∀ v ∈ l.went.getLast?, Moves v l.currentId
  first : l.went = [] → ∀ first ∈ steps.head?, l.currentId = first.stepId

/-- **The invariant of the walk.** -/
structure Loop.OnPath (steps : List SOPStep) (l : Loop) : Prop where
  honest : ∀ step ∈ steps, ∀ result, l.completed.lookup step.stepId = some result →
    Possible step result
  visited : l.visited = (l.went.map (·.step.stepId)).reverse
  members : ∀ v ∈ l.went, v.step ∈ steps
  simulated : Simulated steps l.went
  heading : l.state.isTerminal = false → l.Heading steps

theorem moves_successor (hg : GraphOk steps) {v : Visit} {nextId : String} (hv : v.step ∈ steps)
    (h : Moves v nextId) : nextId ∈ successors steps v.step.stepId := by
  obtain ⟨result, -, hedge, rfl⟩ := h
  unfold successors
  rw [stepIndex_self hg.nodup hv]
  exact List.mem_filter.mpr ⟨List.mem_map_of_mem hedge, hg.targets _ hv _ hedge⟩

/-- **Acyclicity**: the step that the walk is heading for has not been visited. -/
theorem heading_fresh (hg : GraphOk steps) {l : Loop} (hl : l.OnPath steps)
    (hh : l.Heading steps) : l.currentId ∉ l.visited := by
  cases hfirst : steps.head? with
  | none =>
    have hnil : steps = [] := List.head?_eq_none_iff.mp hfirst
    have hfound := hh.found
    rw [hnil] at hfound
    cases hfound
  | some first =>
    have hchain : Walk (successors steps) (l.went.map (·.step.stepId) ++ [l.currentId]) := by
      refine List.isChain_append.mpr ⟨?_, List.isChain_singleton _, fun a ha b hb => ?_⟩
      · rw [List.isChain_map]
        exact hl.simulated.moves.imp_of_mem_imp fun v w hv _ hvw =>
          moves_successor hg (hl.members v hv) hvw
      · obtain rfl : l.currentId = b := by simpa using hb
        rw [List.getLast?_map] at ha
        obtain ⟨v, hv, rfl⟩ := Option.map_eq_some_iff.mp ha
        exact moves_successor hg (hl.members v (List.mem_of_getLast? hv)) (hh.last v hv)
    have hstart : ∃ rest, l.went.map (·.step.stepId) ++ [l.currentId] = first.stepId :: rest := by
      cases hw : l.went with
      | nil => exact ⟨[], by simp [hh.first hw first hfirst]⟩
      | cons v rest =>
        have := hl.simulated.starts v (by simp [hw]) first hfirst
        exact ⟨rest.map (·.step.stepId) ++ [l.currentId], by simp [this]⟩
    obtain ⟨rest, hrest⟩ := hstart
    rw [hrest] at hchain
    have hnd := walk_nodup (hg.acyclic first hfirst) hchain
    rw [← hrest] at hnd
    rw [hl.visited, List.mem_reverse]
    intro hmem
    exact (List.nodup_append.mp hnd).2.2 _ hmem _ (List.mem_singleton_self _) rfl

/-- The step that the walk is heading for is there, and is entered as foreseen. -/
theorem heading_enter (hg : GraphOk steps) {l : Loop} (hl : l.OnPath steps)
    (hrun : l.state.isTerminal = false) :
    ∃ step, l.current steps = some step ∧
      ∀ result, Simulated steps (l.went ++ [⟨step, l.state, result⟩]) := by
  have hh := hl.heading hrun
  have hfresh := heading_fresh hg hl hh
  obtain ⟨step, hstep⟩ := Option.isSome_iff_exists.mp hh.found
  have hmem := stepIndex_mem hstep
  have hid := stepIndex_id hstep
  have hname : l.currentId ≠ "" := hid ▸ hg.named step hmem
  refine ⟨step, by rw [Loop.current, if_neg (not_or.mpr ⟨hname, hfresh⟩), hstep], fun result => ?_⟩
  have hsim := hl.simulated
  have hold : ∀ u ∈ pathFlags false (l.went ++ [⟨step, l.state, result⟩]),
      u ∈ pathFlags false l.went ∨ u = (⟨step, l.state, result⟩, flagAfter l.went) := by
    intro u hu
    rw [pathFlags_append] at hu
    exact (List.mem_append.mp hu).imp_right List.mem_singleton.mp
  refine ⟨fun v hv first hfirst => ?_, ?_, ?_, fun u hu => ?_, fun v hv ht => ?_⟩
  · cases hw : l.went with
    | nil =>
      rw [hw] at hv
      obtain rfl : _ = v := by simpa using hv
      exact hid.trans (hh.first hw first hfirst)
    | cons w rest =>
      rw [hw] at hv
      exact hsim.starts v (by simpa [hw] using hv) first hfirst
  · refine List.isChain_append.mpr ⟨hsim.moves, List.isChain_singleton _, fun v hv w hw => ?_⟩
    obtain rfl : _ = w := by simpa using hw
    rw [show _ = l.currentId from hid]
    exact hh.last v hv
  · rw [List.map_append, List.map_singleton]
    refine List.nodup_append.mpr ⟨hsim.once, List.nodup_singleton _, fun a ha b hb => ?_⟩
    rw [List.mem_singleton.mp hb]
    rintro rfl
    rw [hl.visited, List.mem_reverse, ← hid] at hfresh
    exact hfresh ha
  · rcases hold u hu with hu | rfl
    · exact hsim.flags u hu
    · refine ⟨hh.flag, ?_⟩
      rw [show _ = l.currentId from hid]
      exact hh.entered
  · rcases List.mem_append.mp hv with hv | hv
    · exact hsim.resolves v hv ht
    · obtain rfl := List.mem_singleton.mp hv
      -- The validator has refused every RESOLVE step that can be entered without the flag.
      by_contra hnot
      have hflag : flagAfter l.went = false := by
        rw [← Bool.not_eq_true, ← hh.flag]
        exact hnot
      have hentered := hh.entered
      rw [hflag, ← hid] at hentered
      exact hg.verified step hmem ht hentered

/-- **One round keeps the invariant.** -/
theorem onPath_next (hg : GraphOk steps) {l : Loop} (hl : l.OnPath steps)
    (hcur : l.current steps = some step) (hrun : l.state.isTerminal = false)
    (hs : started step l.state = .ok state) (hr : Possible step result)
    (h : advance eng step result state l.verifiedBy l.reason = .ok p) :
    (l.next journaled step result p).OnPath steps := by
  obtain ⟨found, hfound, hsim⟩ := heading_enter hg hl hrun
  obtain rfl : step = found := Option.some.inj (hcur.symm.trans hfound)
  obtain ⟨-, -, hid, hmem⟩ := current_eq_some hcur
  have hh := hl.heading hrun
  refine ⟨fun s hsm r hnew => ?_, ?_, fun v hv => ?_, hsim _, fun hgo => ?_⟩
  · have hrec : (if (l.completed.lookup step.stepId).isNone && journaled then
        (step.stepId, result) :: l.completed else l.completed).lookup s.stepId = some r := hnew
    split at hrec
    · rw [List.lookup_cons] at hrec
      split at hrec
      · rename_i heq
        have heq : s.stepId = step.stepId := by simpa using heq
        rw [List.inj_on_of_nodup_map hg.nodup hsm hmem heq, ← Option.some.inj hrec]
        exact hr
      · exact hl.honest s hsm r hrec
    · exact hl.honest s hsm r hrec
  · have hvis : (l.next journaled step result p).visited = l.currentId :: l.visited := rfl
    rw [hvis, hl.visited, ← hid]
    simp [Loop.next]
  · rcases List.mem_append.mp hv with hv | hv
    · exact hl.members v hv
    · rw [List.mem_singleton.mp hv]
      exact hmem
  · obtain ⟨hedge, hto, hstate, hflag⟩ := advance_edge hg hmem hr hh.state hs h hgo
    have hafter : flagAfter (l.next journaled step result p).went =
        (resultEdge step result).2.getD (flagAfter l.went) := by
      simp [flagAfter, Loop.next, List.foldl_append, nextFlag]
    have hdec : decide (l.state = .verified) = flagAfter l.went := by
      rw [Bool.eq_iff_iff, decide_eq_true_iff]
      exact hh.flag
    refine ⟨hstate, ?_, ?_, ?_, fun v hv => ?_, fun hnil => ?_⟩
    · rw [hafter, ← hdec]
      exact hflag
    · have hindex : stepIndex steps l.currentId = some step := by
        rw [← hid, stepIndex_self hg.nodup hmem]
      have hsome := hg.targets step hmem _ hedge
      rw [hto] at hsome
      refine hg.closed _ hh.entered _ ?_ hsome
      unfold entries
      rw [hindex, hafter]
      exact List.mem_map.mpr ⟨_, hedge, by rw [hto]; rfl⟩
    · have hsome := hg.targets step hmem _ hedge
      rw [hto] at hsome
      exact hsome
    · have hlast : (l.next journaled step result p).went.getLast? =
          some ⟨step, l.state, some result⟩ := by
        simp [Loop.next]
      rw [hlast] at hv
      cases hv
      exact ⟨result, rfl, hedge, hto⟩
    · simp [Loop.next] at hnil

/-- The walk begins on the path. -/
theorem onPath_start (hg : GraphOk steps) {first : SOPStep} (hfirst : steps.head? = some first)
    (journal : Option RunJournal)
    (hhonest : ∀ j ∈ journal, ∀ step ∈ steps, ∀ result,
      j.completed.lookup step.stepId = some result → Possible step result) :
    Loop.OnPath steps
      { currentId := first.stepId, completed := (journal.map (·.completed)).getD [] } := by
  refine ⟨fun step hstep result hrec => ?_, rfl, fun v hv => absurd hv List.not_mem_nil,
    simulated_nil steps, fun _ => ?_⟩
  · cases journal with
    | none => cases hrec
    | some j => exact hhonest j rfl step hstep result hrec
  · refine ⟨Or.inl rfl, by simp [flagAfter], hg.start first hfirst, ?_, by simp,
      fun _ f hf => ?_⟩
    · obtain ⟨found, hfound⟩ := stepIndex_isSome (List.mem_of_mem_head? hfirst)
      rw [hfound]
      rfl
    · rw [hfirst] at hf
      cases hf
      rfl

/-- **The run lemma.** -/
theorem runSteps_simulated (hg : GraphOk steps) (hne : steps ≠ []) (journal : Option RunJournal)
    (hhonest : ∀ j ∈ journal, ∀ step ∈ steps, ∀ result,
      j.completed.lookup step.stepId = some result → Possible step result) :
    (runSteps eng inc steps values journal).Always fun r =>
      Simulated steps (wentThrough r) ∧ ∀ e, r = .ok e → e.exhausted = false := by
  cases hsteps : steps with
  | nil => exact absurd hsteps hne
  | cons first rest =>
    rw [← hsteps]
    unfold runSteps
    rw [hsteps]
    simp only
    rw [← hsteps]
    have hfirst : steps.head? = some first := by rw [hsteps]; rfl
    refine runLoop_always (Loop.OnPath steps) (fun _ step _ result => Possible step result)
      (fun l step state _ _ => executeStep_possible) ?_ ?_ ?_ ?_ ?_
      ⟨List.nodup_nil, List.nil_subset _⟩ ?_
    · rintro l hl -
      exact ⟨hl.simulated, fun e he => by cases he; rfl⟩
    · intro l hl hcur hrun
      obtain ⟨found, hfound, -⟩ := heading_enter hg hl hrun
      rw [hcur] at hfound
      cases hfound
    · intro l step result e hl hcur hrun
      obtain ⟨found, hfound, hsim⟩ := heading_enter hg hl hrun
      obtain rfl : step = found := Option.some.inj (hcur.symm.trans hfound)
      exact ⟨hsim result, fun e he => by cases he⟩
    · intro l step result state p hl hcur hrun hs hres hp
      refine onPath_next hg hl hcur hrun hs ?_ hp
      rcases hres with hrec | hlive
      · exact hl.honest step (current_eq_some hcur).2.2.2 result hrec
      · exact hlive
    · exact onPath_start hg hfirst journal hhonest
    · simp only [List.length_nil]
      omega

/-- Rendering changes the parameters of each step and nothing else. -/
theorem renderSteps_shape {source rendered : List SOPStep}
    (h : source.mapM (renderStep eng values) = .ok rendered) :
    rendered.map SOPStep.shape = source.map SOPStep.shape := by
  induction source generalizing rendered with
  | nil =>
    rw [List.mapM_nil] at h
    cases h
    rfl
  | cons step source ih =>
    rw [List.mapM_cons] at h
    obtain ⟨step', hstep', h⟩ := bind_eq_ok h
    obtain ⟨rest, hrest, h⟩ := bind_eq_ok h
    cases h
    obtain ⟨parameters, -, hstep'⟩ := bind_eq_ok hstep'
    cases hstep'
    rw [List.map_cons, List.map_cons, ih hrest]
    rfl

end Executor

theorem Simulated.of_shape {steps steps' : List SOPStep} {went : List Visit}
    (h : steps'.map SOPStep.shape = steps.map SOPStep.shape) (hs : Simulated steps' went) :
    Simulated steps went := by
  have hflags : verifiedFlagsOnEntry steps' = verifiedFlagsOnEntry steps := by
    rw [← verifiedFlags_shape steps', h, verifiedFlags_shape]
  refine ⟨fun v hv first hfirst => ?_, hs.moves, hs.once, hflags ▸ hs.flags, hs.resolves⟩
  have hheads := congrArg List.head? h
  rw [List.head?_map, List.head?_map, Option.mem_def.mp hfirst] at hheads
  obtain ⟨first', hfirst', heq⟩ := Option.map_eq_some_iff.mp hheads
  rw [hs.starts v hv first' hfirst']
  exact congrArg (·.stepId) heq

/-- **The validator's graph analysis simulates the engine.** -/
theorem validated_sop_simulates (eng : Engine) (inc : Incident) (sop : SOP)
    (values : List (String × Json)) (steps : List SOPStep) (journal : Option RunJournal)
    (hvalid : validateSop eng.catalog sop = [])
    (hrendered : sop.steps.mapM (Executor.renderStep eng values) = .ok steps)
    (hhonest : ∀ j ∈ journal, ∀ step ∈ steps, ∀ result,
      j.completed.lookup step.stepId = some result → Possible step result) :
    (Executor.runSteps eng inc steps values journal).Always fun r =>
      Simulated sop.steps (wentThrough r) ∧ ∀ e, r = .ok e → e.exhausted = false := by
  obtain ⟨hne, hg⟩ := validateSop_graph hvalid
  have hshape := Executor.renderSteps_shape hrendered
  have hne' : steps ≠ [] := by
    rintro rfl
    exact hne (List.map_eq_nil_iff.mp hshape.symm)
  refine (Executor.runSteps_simulated (hg.of_shape hshape) hne' journal hhonest).mono fun r hr => ?_
  exact ⟨hr.1.of_shape hshape, hr.2⟩

theorem validated_sop_simulates_sample :
    (Executor.runSteps sampleEngine {} sampleSop.steps [] none).Always fun r =>
      Simulated sampleSop.steps (wentThrough r) ∧ ∀ e, r = .ok e → e.exhausted = false :=
  validated_sop_simulates sampleEngine {} sampleSop [] sampleSop.steps none (by decide) rfl
    (fun _ h => by cases h)

end L1Agent
