import Mathlib.Data.List.Sort
import L1Agent.Connectors.Manifest
import L1Agent.Library.Digraph
import L1Agent.Models.Sop

/-! # Static SOP validation (`sop/validator.py`)

An SOP that has any problem is never executed.  The checks stand in the source's
order and with its texts.  What the validator asks of other modules (the
connectors' manifests, the parser of expressions, the check of a parameter's
declaration) is a `Catalog`; nothing is assumed about its answers.

The graph analysis is `stepEdges`, `hasCycle` and `verifiedFlagsOnEntry`.  For an
SOP without problems `validateSop_graph` says what it has established about the
steps.
-/
namespace L1Agent
open Digraph

/-- What the validator reads from other modules. -/
structure Catalog where
  builtins : Builtins
  /-- `find_capability` -/
  findCapability : String → Option Capability
  /-- `is_step_capability` -/
  isStepCapability : String → Bool
  /-- `validate_step_parameters(.., allow_placeholders=True)` -/
  validateStepParameters : String → Json → List String
  /-- `expressions.root_names`; the text of an `ExpressionError` otherwise. -/
  rootNames : String → Except String (List String)
  /-- `spec_problems` -/
  specProblems : ParameterSpec → List String
  /-- `undeclared_placeholders` -/
  undeclaredPlaceholders : SOP → List String

/-- `LEGACY_ANY_FAILED_RULE`: the one rule whose true branch is `on_failure`. -/
def legacyAnyFailedRule : String := "any_failed"

def decisionRoots : List String :=
  ["steps", "status", "incident", "params", "all_success", "any_failed"]

def verifyRoots : List String := decisionRoots ++ ["result"]

def maxVerifyRetries : Int := 10
def maxVerifyWaitSeconds : Int := 300

/-- `text.lower()`, as far as a comparison with a capability id can tell. -/
def lower (text : String) : String := String.ofList (text.toList.map Char.toLower)

/-- `text` is an `int` and no `bool`, between the bounds. -/
def intBetween (lo hi : Int) : Json → Bool
  | .int n => lo ≤ n && n ≤ hi
  | _ => false

/-- `text` is an `int` or a `float`, between the bounds. -/
def numberBetween (lo hi : Int) : Json → Bool
  | .int n => lo ≤ n && n ≤ hi
  | .float q => (lo : Rat) ≤ q && q ≤ hi
  | _ => false

/-- `sorted(set(keys) - set(known))` -/
def extraKeys (keys known : List String) : List String :=
  (keys.filter fun k => k ∉ known).dedup.insertionSort (· ≤ ·)

/-- A character of a change template's name, after the first. -/
def changeTemplateChar (c : Char) : Bool :=
  c.isAlphanum || c == ' ' || c == '.' || c == '_' || c == '-'

/-- `CHANGE_TEMPLATE_RE.match`.  The pattern's `$` also matches before a line feed
at the end. -/
def changeTemplateOk (text : String) : Bool :=
  let body := if text.toList.getLast? = some '\n' then text.toList.dropLast else text.toList
  match body with
  | [] => false
  | c :: rest =>
    c.isAlphanum && rest.all changeTemplateChar && rest.length ≤ 99

/-! ## The step graph -/

/-- `step_edges`: outgoing edges as the target's id and the verified flag after
taking the edge; `none` passes the incoming flag through. -/
def stepEdges (step : SOPStep) : List (String × Option Bool) :=
  if step.requiresApproval || (step.type?.map StepType.isTerminal).getD false then []
  else if step.type? = some .verify then
    (if step.onSuccess = "" then [] else [(step.onSuccess, some true)]) ++
      (if step.onFailure = "" then [] else [(step.onFailure, some false)])
  else if step.type? = some .note then
    (if step.onSuccess = "" then [] else [(step.onSuccess, none)]) ++
      (if step.onFailure = "" then [] else [(step.onFailure, some false)])
  else
    ([step.onSuccess, step.onFailure].filter (· ≠ "")).map fun target => (target, some false)

/-- The targets of a step's edges that name a step. -/
def successors (steps : List SOPStep) (stepId : String) : List String :=
  match stepIndex steps stepId with
  | none => []
  | some step => ((stepEdges step).map (·.1)).filter fun target => (stepIndex steps target).isSome

/-- `_has_cycle`.  The search is never deeper than there are steps. -/
def hasCycle (steps : List SOPStep) (start : String) : Bool :=
  (visit (successors steps) (steps.length + 1) [] [] start).1

/-- A step and the flag with which it is entered. -/
abbrev Entered := String × Bool

/-- Where the edges of a step lead when it was entered with a flag. -/
def entries (steps : List SOPStep) (e : Entered) : List Entered :=
  match stepIndex steps e.1 with
  | none => []
  | some step => (stepEdges step).map fun edge => (edge.1, edge.2.getD e.2)

/-- `verified_flags_on_entry`, as the list of pairs of a step id and a flag.  Each
pair is expanded once and has at most two edges. -/
def verifiedFlagsOnEntry (steps : List SOPStep) : List Entered :=
  match steps with
  | [] => []
  | first :: _ =>
    explore (fun e => (stepIndex steps e.1).isSome) (entries steps) (4 * steps.length + 2)
      [(first.stepId, false)] []

/-! ## The checks -/

variable (cat : Catalog)

/-- `_expression_problems` -/
def expressionProblems (label : String) (text : Json) (roots : List String) : List String :=
  match text with
  | .str text =>
    match cat.rootNames text with
    | .error message => [s!"{label}: {message}"]
    | .ok used =>
      (used.filter fun name => name ∉ roots).map fun name => s!"{label}: unknown name '{name}'"
  | _ => [s!"{label}: expression must be a string"]

/-- `_capability_problems`: a check names a read capability that exists, with
parameters its schema accepts. -/
def capabilityProblems (label capabilityId : String) (parameters : Json) : List String :=
  match if capabilityId = "" then none else cat.findCapability capabilityId with
  | none => [s!"{label}: unknown capability '{capabilityId}'"]
  | some capability =>
    if capabilityId ≠ capability.id then [s!"{label}: unknown capability '{capabilityId}'"]
    else if capability.kind ≠ .read then
      [s!"{label}: '{capabilityId}' is a write and cannot be used as a check"]
    else if !cat.isStepCapability capabilityId then
      [s!"{label}: '{capabilityId}' cannot be used in an SOP step"]
    else (cat.validateStepParameters capabilityId parameters).map fun p => s!"{label}: {p}"

/-- `_action_problems`: an action names a write capability that exists, with
parameters its schema accepts. -/
def actionProblems (label : String) (step : SOPStep) : List String :=
  match if step.capability = "" then none else cat.findCapability step.capability with
  | none => [s!"{label}: unknown capability '{step.capability}'"]
  | some capability =>
    if step.capability ≠ capability.id then [s!"{label}: unknown capability '{step.capability}'"]
    else if capability.kind ≠ .write then
      [s!"{label}: '{step.capability}' is a read; use a CHECK step"]
    else if !cat.isStepCapability step.capability then
      [s!"{label}: '{step.capability}' cannot be used in an SOP step"]
    else
      let problems :=
        (cat.validateStepParameters step.capability step.parameters).map fun p => s!"{label}: {p}"
      if !step.verify.isObj then problems ++ [s!"{label}: verify must be an object"]
      else
        let extra := extraKeys step.verify.keys ["assert", "retries", "wait_seconds"]
        problems
          ++ (if extra.isEmpty then []
            else [s!"{label}: unknown verify keys {cat.builtins.reprTexts extra}"])
          ++ (match step.verify.get? "assert" with
            | none => []
            | some text =>
              expressionProblems cat s!"{label} verify assert" text ["result", "params"])
          ++ (if intBetween 0 60 (step.verify.getD "retries" (.int 0)) then []
            else [s!"{label}: verify retries must be between 0 and 60"])
          ++ (if numberBetween 0 maxVerifyWaitSeconds (step.verify.getD "wait_seconds" (.int 0))
            then []
            else [s!"{label}: verify wait_seconds must be between 0 and {maxVerifyWaitSeconds}"])

/-- The checks of a VERIFY step's parameters. -/
def verifyProblems (label : String) (step : SOPStep) : List String :=
  let extra :=
    extraKeys step.parameters.keys ["check", "parameters", "assert", "retries", "wait_seconds"]
  let check := cat.builtins.str (step.parameters.getD "check" (.str ""))
  let checkParams := step.parameters.getD "parameters" (.obj [])
  (if extra.isEmpty then []
    else [s!"{label}: unknown VERIFY keys {cat.builtins.reprTexts extra}"])
  ++ (if ((stepTypeOf check).map StepType.isCheck).getD false then
      (cat.validateStepParameters (upper check) checkParams).map fun p => s!"{label}: {p}"
    else if (cat.findCapability check).isSome && check = lower check then
      capabilityProblems cat label check checkParams
    else [s!"{label}: 'check' must be an adapter step type"])
  ++ expressionProblems cat s!"{label} assert" (step.parameters.getD "assert" .null) verifyRoots
  ++ (if intBetween 0 maxVerifyRetries (step.parameters.getD "retries" (.int 0)) then []
    else [s!"{label}: retries must be between 0 and {maxVerifyRetries}"])
  ++ (if numberBetween 0 maxVerifyWaitSeconds (step.parameters.getD "wait_seconds" (.int 0)) then []
    else [s!"{label}: wait_seconds must be between 0 and {maxVerifyWaitSeconds}"])

/-- The edges of a step must lead to steps of the SOP. -/
def edgeProblems (label : String) (step : SOPStep) (steps : List SOPStep) : List String :=
  [("on_success", step.onSuccess), ("on_failure", step.onFailure)].filterMap fun (edge, target) =>
    if target ≠ "" && (stepIndex steps target).isNone then
      some s!"{label}: {edge} refers to unknown step '{target}'"
    else none

/-- What a step's type asks of its other fields. -/
def typeProblems (label : String) (step : SOPStep) (type : StepType) : List String :=
  if type.isCheck then
    (cat.validateStepParameters type.value step.parameters).map fun p => s!"{label}: {p}"
  else match type with
  | .check => capabilityProblems cat label step.capability step.parameters
  | .action => actionProblems cat label step
  | .decision =>
    let rule := step.parameters.getD "rule" (.str "")
    if rule = .str legacyAnyFailedRule then []
    else expressionProblems cat s!"{label} rule" rule decisionRoots
  | .verify => verifyProblems cat label step
  | _ => []

/-- `_step_problems` -/
def stepProblems (step : SOPStep) (steps : List SOPStep) : List String :=
  let label := s!"step '{step.stepId}'"
  match step.type? with
  | none => [s!"{label}: unknown step type '{step.stepType}'"]
  | some type =>
    if !step.parameters.isObj then [s!"{label}: parameters must be an object"]
    else
      let problems := edgeProblems label step steps
      if type.isTerminal then
        problems ++
          (if step.onSuccess ≠ "" || step.onFailure ≠ "" then
            [s!"{label}: a {type.value} step ends the run and cannot have edges"] else [])
      else
        problems
        ++ (if step.onSuccess = "" && !step.requiresApproval then
          [s!"{label}: on_success is required (end the run with ESCALATE or RESOLVE)"] else [])
        ++ (if step.capability ≠ "" && type ≠ .check && type ≠ .action then
          [s!"{label}: only a CHECK or ACTION step names a capability"] else [])
        ++ (if step.verify.truthy && type ≠ .action then
          [s!"{label}: only an ACTION step has verify settings"] else [])
        ++ typeProblems cat label step type

/-- `sorted({x for x in xs if xs.count(x) > 1})` -/
def duplicatesOf (xs : List String) : List String :=
  (xs.filter fun x => 1 < xs.count x).dedup.insertionSort (· ≤ ·)

/-- Whether the SOP makes a change. -/
def SOP.acts (sop : SOP) : Bool := sop.steps.any fun s => s.type? = some .action

/-- What is checked before the step ids can be trusted. -/
def identityProblems (sop : SOP) : List String :=
  let ids := sop.steps.map (·.stepId)
  let duplicates := duplicatesOf (ids.filter (· ≠ ""))
  (if sop.isDraft then [s!"status is '{sop.status}'; only a published SOP can execute"] else [])
  ++ (if sop.sopId = "" then ["sop_id is required"] else [])
  ++ (if sop.steps.isEmpty then ["an SOP needs at least one step"]
    else
      (if ids.any (· = "") then ["every step needs a step_id"] else [])
      ++ (if duplicates.isEmpty then []
        else [s!"duplicate step ids: {cat.builtins.reprTexts duplicates}"]))

/-- What is checked of the parameters, of each step and of the change template. -/
def contentProblems (sop : SOP) : List String :=
  let dupParams := duplicatesOf (sop.parameters.map (·.name))
  (if dupParams.isEmpty then []
    else [s!"duplicate parameter names: {cat.builtins.reprTexts dupParams}"])
  ++ sop.parameters.flatMap cat.specProblems
  ++ (cat.undeclaredPlaceholders sop).map (fun name =>
    "placeholder '$\x7b" ++ name ++ "\x7d' is used but no parameter declares it")
  ++ sop.steps.flatMap (fun step => stepProblems cat step sop.steps)
  ++ (if sop.acts && sop.parameters.any (fun spec => (spec.source.getD "advisor" .null).truthy) then
    ["an SOP with an ACTION step may not have a parameter with source.advisor set"] else [])
  ++ (if sop.acts && !changeTemplateOk sop.changeTemplate then
    ["an SOP with an ACTION step must name a change_template " ++
      "(letters, digits, spaces and . _ - only)"] else [])
  ++ (if sop.changeTemplate ≠ "" && !changeTemplateOk sop.changeTemplate then
    ["change_template may hold letters, digits, spaces and . _ - only"] else [])

/-- What is checked of the step graph. -/
def graphProblems (sop : SOP) : List String :=
  match sop.steps with
  | [] => []
  | first :: _ =>
    if hasCycle sop.steps first.stepId then ["the step graph contains a cycle"]
    else
      let flags := verifiedFlagsOnEntry sop.steps
      (sop.steps.filter fun step => step.type? = some .resolve && (step.stepId, false) ∈ flags).map
        fun step => s!"step '{step.stepId}': RESOLVE can be reached without a passed VERIFY step"

/-- `validate_sop`: every problem found.  An empty list means that the SOP may
execute. -/
def validateSop (sop : SOP) : List String :=
  if identityProblems cat sop ≠ [] then identityProblems cat sop
  else if contentProblems cat sop ≠ [] then contentProblems cat sop
  else graphProblems sop

/-! ## What an SOP without problems is -/

/-- What the validator establishes about the steps, for the engine to rely on. -/
structure GraphOk (steps : List SOPStep) : Prop where
  nodup : (steps.map (·.stepId)).Nodup
  named : ∀ step ∈ steps, step.stepId ≠ ""
  known : ∀ step ∈ steps, step.type? ≠ none
  targets : ∀ step ∈ steps, ∀ edge ∈ stepEdges step, (stepIndex steps edge.1).isSome
  goesOn : ∀ step ∈ steps, step.requiresApproval = false →
    (step.type?.map StepType.isTerminal).getD false = false → step.onSuccess ≠ ""
  acyclic : ∀ first ∈ steps.head?, Acc (Edge (successors steps)) first.stepId
  start : ∀ first ∈ steps.head?, (first.stepId, false) ∈ verifiedFlagsOnEntry steps
  closed : ∀ e ∈ verifiedFlagsOnEntry steps, ∀ e' ∈ entries steps e,
    (stepIndex steps e'.1).isSome → e' ∈ verifiedFlagsOnEntry steps
  verified : ∀ step ∈ steps, step.type? = some .resolve →
    (step.stepId, false) ∉ verifiedFlagsOnEntry steps

theorem stepEdges_length (step : SOPStep) : (stepEdges step).length ≤ 2 := by
  unfold stepEdges
  split
  · simp
  split
  · split <;> split <;> simp
  split
  · split <;> split <;> simp
  · rw [List.length_map]
    exact List.length_filter_le _ [step.onSuccess, step.onFailure]

theorem entries_length (steps : List SOPStep) (e : Entered) : (entries steps e).length ≤ 2 := by
  unfold entries
  split
  · simp
  · rw [List.length_map]
    exact stepEdges_length _

/-- Every step with every flag. -/
def allEntered (steps : List SOPStep) : List Entered :=
  (steps.map (·.stepId)).flatMap fun i => [(i, true), (i, false)]

theorem mem_allEntered {steps : List SOPStep} (e : Entered)
    (h : (stepIndex steps e.1).isSome = true) : e ∈ allEntered steps := by
  obtain ⟨i, flag⟩ := e
  obtain ⟨step, hstep⟩ := Option.isSome_iff_exists.mp h
  have hid : step.stepId = i := stepIndex_id hstep
  refine List.mem_flatMap.mpr ⟨i, ?_, by cases flag <;> simp⟩
  rw [← hid]
  exact List.mem_map_of_mem (stepIndex_mem hstep)

/-- The closure has room for every step and flag. -/
theorem work_allEntered (steps : List SOPStep) (start : Entered) :
    work (allEntered steps) 2 [start] [] < 4 * steps.length + 2 := by
  have hlen : (allEntered steps).length = steps.length * 2 := by
    simp [allEntered, List.length_flatMap, Function.comp_def]
  have hle := work_le (allEntered steps) 2 [start] []
  rw [hlen, List.length_singleton] at hle
  omega

theorem verifiedFlags_closed (steps : List SOPStep) :
    (∀ first ∈ steps.head?, (first.stepId, false) ∈ verifiedFlagsOnEntry steps) ∧
    ∀ e ∈ verifiedFlagsOnEntry steps, ∀ e' ∈ entries steps e,
      (stepIndex steps e'.1).isSome → e' ∈ verifiedFlagsOnEntry steps := by
  cases steps with
  | nil => exact ⟨fun _ h => (by cases h), fun _ h => absurd h List.not_mem_nil⟩
  | cons first rest =>
    obtain ⟨-, hstart, hclosed⟩ := explore_closed mem_allEntered (entries_length (first :: rest))
      (work_allEntered (first :: rest) (first.stepId, false))
      (fun a ha => absurd ha List.not_mem_nil)
    refine ⟨fun f hf => ?_, hclosed⟩
    obtain rfl : first = f := by simpa using hf
    exact hstart _ (List.mem_singleton_self _) (by
      obtain ⟨found, hfound⟩ := stepIndex_isSome (List.mem_cons_self (a := first) (l := rest))
      rw [hfound]
      rfl)

theorem acyclic_of_hasCycle {steps : List SOPStep} {start : String}
    (h : hasCycle steps start = false) : Acc (Edge (successors steps)) start := by
  have hv : visit (successors steps) (steps.length + 1) [] [] start =
      (false, (visit (successors steps) (steps.length + 1) [] [] start).2) := Prod.ext h rfl
  obtain ⟨hends, hmem, -⟩ := visit_acc (fun a ha => absurd ha List.not_mem_nil) hv
  exact hends _ hmem

theorem stepEdges_target {step : SOPStep} {edge : String × Option Bool}
    (h : edge ∈ stepEdges step) :
    edge.1 ≠ "" ∧ (edge.1 = step.onSuccess ∨ edge.1 = step.onFailure) := by
  unfold stepEdges at h
  split at h
  · cases h
  split at h
  · rcases List.mem_append.mp h with h | h
    · split at h
      · cases h
      · rename_i hne
        rw [List.mem_singleton.mp h]
        exact ⟨hne, Or.inl rfl⟩
    · split at h
      · cases h
      · rename_i hne
        rw [List.mem_singleton.mp h]
        exact ⟨hne, Or.inr rfl⟩
  split at h
  · rcases List.mem_append.mp h with h | h
    · split at h
      · cases h
      · rename_i hne
        rw [List.mem_singleton.mp h]
        exact ⟨hne, Or.inl rfl⟩
    · split at h
      · cases h
      · rename_i hne
        rw [List.mem_singleton.mp h]
        exact ⟨hne, Or.inr rfl⟩
  · obtain ⟨target, ht, rfl⟩ := List.mem_map.mp h
    obtain ⟨hmem, hne⟩ := List.mem_filter.mp ht
    refine ⟨by simpa using hne, ?_⟩
    simpa using hmem

variable {cat}

theorem edgeProblems_nil {label : String} {step : SOPStep} {steps : List SOPStep}
    (h : edgeProblems label step steps = []) {target : String}
    (ht : target = step.onSuccess ∨ target = step.onFailure) (hne : target ≠ "") :
    (stepIndex steps target).isSome := by
  by_contra hnone
  have hnone : (stepIndex steps target).isNone = true := by simpa using hnone
  unfold edgeProblems at h
  rw [List.filterMap_eq_nil_iff] at h
  rcases ht with rfl | rfl
  · have := h ("on_success", step.onSuccess) (by simp)
    simp [hne, hnone] at this
  · have := h ("on_failure", step.onFailure) (by simp)
    simp [hne, hnone] at this

theorem stepProblems_nil {step : SOPStep} {steps : List SOPStep}
    (h : stepProblems cat step steps = []) :
    step.type? ≠ none ∧
    (∀ edge ∈ stepEdges step, (stepIndex steps edge.1).isSome) ∧
    (step.requiresApproval = false → (step.type?.map StepType.isTerminal).getD false = false →
      step.onSuccess ≠ "") := by
  unfold stepProblems at h
  simp only at h
  split at h
  · cases h
  rename_i type htype
  split at h
  · cases h
  have hedges : edgeProblems s!"step '{step.stepId}'" step steps = [] := by
    split at h
    · exact (List.append_eq_nil_iff.mp h).1
    · simp only [List.append_eq_nil_iff] at h
      exact h.1.1.1.1
  refine ⟨by simp [htype], fun edge hedge => ?_, fun happ hterm => ?_⟩
  · obtain ⟨hne, ht⟩ := stepEdges_target hedge
    exact edgeProblems_nil hedges ht hne
  · have hterm : type.isTerminal = false := by simpa [htype] using hterm
    rw [if_neg (by simp [hterm])] at h
    simp only [List.append_eq_nil_iff] at h
    have hgo := h.1.1.1.2
    intro hempty
    simp [hempty, happ] at hgo

theorem duplicatesOf_nil {xs : List String} (h : duplicatesOf xs = []) : xs.Nodup := by
  rw [List.nodup_iff_count_le_one]
  intro x
  by_contra hx
  have hcount : 1 < xs.count x := by omega
  have hmem : x ∈ xs := List.count_pos_iff.mp (by omega)
  have hx' : x ∈ duplicatesOf xs := by
    unfold duplicatesOf
    rw [List.mem_insertionSort, List.mem_dedup]
    exact List.mem_filter.mpr ⟨hmem, by simpa using hcount⟩
  rw [h] at hx'
  cases hx'

theorem validateSop_content {sop : SOP} (h : validateSop cat sop = []) :
    identityProblems cat sop = [] ∧ contentProblems cat sop = [] := by
  unfold validateSop at h
  split at h
  · rename_i hid
    exact absurd h hid
  rename_i hid
  split at h
  · rename_i hcontent
    exact absurd h hcontent
  rename_i hcontent
  exact ⟨not_not.mp hid, not_not.mp hcontent⟩

/-- An SOP without problems has steps without problems. -/
theorem validateSop_steps {sop : SOP} (h : validateSop cat sop = []) :
    ∀ step ∈ sop.steps, stepProblems cat step sop.steps = [] := by
  have hcontent := (validateSop_content h).2
  unfold contentProblems at hcontent
  simp only [List.append_eq_nil_iff] at hcontent
  exact List.flatMap_eq_nil_iff.mp hcontent.1.1.1.2

/-- The overrides of a write's verification in an SOP without problems. -/
theorem validateSop_verify {sop : SOP} (h : validateSop cat sop = []) {step : SOPStep}
    (hstep : step ∈ sop.steps) (htype : step.type? = some .action) :
    step.verify.isObj = true ∧
      intBetween 0 60 (step.verify.getD "retries" (.int 0)) = true := by
  have hnil := validateSop_steps h step hstep
  unfold stepProblems at hnil
  simp only [htype, StepType.isTerminal, Bool.false_eq_true, if_false] at hnil
  split at hnil
  · cases hnil
  simp only [List.append_eq_nil_iff] at hnil
  have htyped := hnil.2
  unfold typeProblems at htyped
  rw [if_neg (by decide)] at htyped
  replace htyped : actionProblems cat s!"step '{step.stepId}'" step = [] := htyped
  unfold actionProblems at htyped
  split at htyped
  · cases htyped
  split at htyped
  · cases htyped
  split at htyped
  · cases htyped
  split at htyped
  · cases htyped
  simp only at htyped
  split at htyped
  · exact absurd (List.append_eq_nil_iff.mp htyped).2 (List.cons_ne_nil _ _)
  rename_i hobj
  simp only [List.append_eq_nil_iff] at htyped
  refine ⟨by simpa using hobj, ?_⟩
  by_contra hbad
  have hretries := htyped.1.2
  rw [if_neg hbad] at hretries
  cases hretries

/-- **What an SOP without problems is.** -/
theorem validateSop_graph {sop : SOP} (h : validateSop cat sop = []) :
    sop.steps ≠ [] ∧ GraphOk sop.steps := by
  have hsteps := validateSop_steps h
  obtain ⟨hid, hcontent⟩ := validateSop_content h
  unfold validateSop at h
  rw [if_neg (not_not.mpr hid), if_neg (not_not.mpr hcontent)] at h
  unfold identityProblems at hid
  simp only [List.append_eq_nil_iff] at hid
  have hne : sop.steps ≠ [] := by
    intro hnil
    simp [hnil] at hid
  have hids := hid.2
  rw [if_neg (by simpa using hne)] at hids
  obtain ⟨hnamed, hdup⟩ := List.append_eq_nil_iff.mp hids
  have hnamed : ∀ step ∈ sop.steps, step.stepId ≠ "" := by
    intro step hstep hempty
    rw [if_pos] at hnamed
    · cases hnamed
    · exact List.any_eq_true.mpr ⟨step.stepId, List.mem_map_of_mem hstep, by simp [hempty]⟩
  have hall : (sop.steps.map (·.stepId)).filter (· ≠ "") = sop.steps.map (·.stepId) := by
    rw [List.filter_eq_self]
    intro i hi
    obtain ⟨step, hstep, rfl⟩ := List.mem_map.mp hi
    simpa using hnamed step hstep
  have hnodup : (sop.steps.map (·.stepId)).Nodup := by
    refine duplicatesOf_nil ?_
    rw [hall] at hdup
    by_contra hd
    rw [if_neg (by simpa using hd)] at hdup
    cases hdup
  obtain ⟨hstart, hclosed⟩ := verifiedFlags_closed sop.steps
  unfold graphProblems at h
  split at h
  · rename_i hnil
    exact absurd hnil hne
  rename_i first rest heq
  split at h
  · cases h
  rename_i hcycle
  have hcycle : hasCycle sop.steps first.stepId = false := by simpa using hcycle
  refine ⟨hne, hnodup, hnamed, fun s hs => (stepProblems_nil (hsteps s hs)).1,
    fun s hs => (stepProblems_nil (hsteps s hs)).2.1,
    fun s hs => (stepProblems_nil (hsteps s hs)).2.2, fun f hf => ?_, hstart, hclosed,
    fun s hs ht hflag => ?_⟩
  · rw [heq] at hf
    obtain rfl : first = f := by simpa using hf
    exact acyclic_of_hasCycle hcycle
  · have hbad : s ∈ sop.steps.filter fun step => step.type? = some .resolve &&
        (step.stepId, false) ∈ verifiedFlagsOnEntry sop.steps :=
      List.mem_filter.mpr ⟨hs, by simp [ht, hflag]⟩
    rw [List.map_eq_nil_iff.mp h] at hbad
    cases hbad

/-! ## Rendering leaves the graph as it was -/

theorem mem_of_shape {steps steps' : List SOPStep}
    (h : steps'.map SOPStep.shape = steps.map SOPStep.shape) {step' : SOPStep}
    (hs : step' ∈ steps') : ∃ step ∈ steps, step.shape = step'.shape := by
  have hmem : step'.shape ∈ steps.map SOPStep.shape := h ▸ List.mem_map_of_mem hs
  exact List.mem_map.mp hmem

theorem type_of_shape {s t : SOPStep} (h : t.shape = s.shape) : t.type? = s.type? := by
  have htype : t.shape.type? = s.shape.type? := by rw [h]
  exact htype

theorem stepEdges_of_shape {s t : SOPStep} (h : t.shape = s.shape) :
    stepEdges t = stepEdges s := by
  have hedges : stepEdges t.shape = stepEdges s.shape := by rw [h]
  exact hedges

theorem stepIndex_isSome_shape (steps : List SOPStep) (stepId : String) :
    (stepIndex (steps.map SOPStep.shape) stepId).isSome = (stepIndex steps stepId).isSome := by
  rw [stepIndex_shape, Option.isSome_map]

theorem successors_shape (steps : List SOPStep) :
    successors (steps.map SOPStep.shape) = successors steps := by
  funext stepId
  unfold successors
  simp only [stepIndex_isSome_shape]
  rw [stepIndex_shape]
  cases stepIndex steps stepId with
  | none => rfl
  | some step => rfl

theorem entries_shape (steps : List SOPStep) :
    entries (steps.map SOPStep.shape) = entries steps := by
  funext e
  unfold entries
  rw [stepIndex_shape]
  cases stepIndex steps e.1 with
  | none => rfl
  | some step => rfl

theorem verifiedFlags_shape (steps : List SOPStep) :
    verifiedFlagsOnEntry (steps.map SOPStep.shape) = verifiedFlagsOnEntry steps := by
  cases steps with
  | nil => rfl
  | cons first rest =>
    have hentries := entries_shape (first :: rest)
    have hindex := stepIndex_isSome_shape (first :: rest)
    rw [List.map_cons] at hentries hindex ⊢
    simp only [verifiedFlagsOnEntry, hentries, hindex, List.length_cons, List.length_map]
    rfl

/-- **Steps that differ in their parameters only have the same graph.** -/
theorem GraphOk.of_shape {steps steps' : List SOPStep} (hg : GraphOk steps)
    (h : steps'.map SOPStep.shape = steps.map SOPStep.shape) : GraphOk steps' := by
  have hsucc : successors steps' = successors steps := by
    rw [← successors_shape steps', h, successors_shape]
  have hent : entries steps' = entries steps := by
    rw [← entries_shape steps', h, entries_shape]
  have hflags : verifiedFlagsOnEntry steps' = verifiedFlagsOnEntry steps := by
    rw [← verifiedFlags_shape steps', h, verifiedFlags_shape]
  have hindex : ∀ i, (stepIndex steps' i).isSome = (stepIndex steps i).isSome := fun i => by
    rw [← stepIndex_isSome_shape steps', h, stepIndex_isSome_shape]
  have hids : steps'.map (·.stepId) = steps.map (·.stepId) := by
    have := congrArg (List.map (·.stepId)) h
    simpa [Function.comp_def, SOPStep.shape] using this
  have hhead : ∀ first' ∈ steps'.head?, ∃ first ∈ steps.head?, first.stepId = first'.stepId := by
    intro first' hf
    have := congrArg List.head? hids
    rw [List.head?_map, List.head?_map, Option.mem_def.mp hf] at this
    obtain ⟨first, hfirst, heq⟩ := Option.map_eq_some_iff.mp this.symm
    exact ⟨first, hfirst, heq⟩
  refine ⟨hids ▸ hg.nodup, fun s hs => ?_, fun s hs => ?_, fun s hs => ?_, fun s hs => ?_,
    fun f hf => ?_, fun f hf => ?_, ?_, fun s hs => ?_⟩
  · obtain ⟨t, ht, hshape⟩ := mem_of_shape h hs
    rw [← show t.stepId = s.stepId from congrArg (·.stepId) hshape]
    exact hg.named t ht
  · obtain ⟨t, ht, hshape⟩ := mem_of_shape h hs
    rw [← type_of_shape hshape]
    exact hg.known t ht
  · obtain ⟨t, ht, hshape⟩ := mem_of_shape h hs
    rw [← stepEdges_of_shape hshape]
    simp only [hindex]
    exact hg.targets t ht
  · obtain ⟨t, ht, hshape⟩ := mem_of_shape h hs
    rw [← type_of_shape hshape,
      ← show t.requiresApproval = s.requiresApproval from congrArg (·.requiresApproval) hshape,
      ← show t.onSuccess = s.onSuccess from congrArg (·.onSuccess) hshape]
    exact hg.goesOn t ht
  · obtain ⟨first, hfirst, heq⟩ := hhead f hf
    rw [hsucc, ← heq]
    exact hg.acyclic first hfirst
  · obtain ⟨first, hfirst, heq⟩ := hhead f hf
    rw [hflags, ← heq]
    exact hg.start first hfirst
  · rw [hflags, hent]
    simp only [hindex]
    exact hg.closed
  · obtain ⟨t, ht, hshape⟩ := mem_of_shape h hs
    rw [hflags, ← type_of_shape hshape,
      ← show t.stepId = s.stepId from congrArg (·.stepId) hshape]
    exact hg.verified t ht

end L1Agent
