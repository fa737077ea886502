import L1Agent.Sop.Validator

/-! # The validator's graph analysis is exact

`_has_cycle` answers yes where a cycle can be reached along `step_edges`, and nowhere else.
`verified_flags_on_entry` ends on every graph, with a cycle or without, and has of each step the
flags that the paths to it bring.

The functions instantiate the searches of `Library/Digraph.lean`: `hasCycle_iff` goes by
`visit_iff`, and the flags by what can be reached over entries (`reach_entries_iff`).
`graph_exact` puts both together, for any list of steps with a first one.
-/
namespace L1Agent
open Digraph Relation

variable (steps : List SOPStep)

/-! ## Cycles -/

/-- An edge of the step graph; its target need not name a step. -/
def StepEdge (a b : String) : Prop :=
  ∃ step, stepIndex steps a = some step ∧ ∃ flag, (b, flag) ∈ stepEdges step

variable {steps}

theorem mem_successors {a b : String} :
    b ∈ successors steps a ↔ StepEdge steps a b ∧ (stepIndex steps b).isSome = true := by
  unfold successors StepEdge
  cases hstep : stepIndex steps a with
  | none => simp
  | some step => simp

theorem StepEdge.source {a b : String} (h : StepEdge steps a b) :
    (stepIndex steps a).isSome = true := by
  obtain ⟨step, hstep, -⟩ := h
  rw [hstep]
  rfl

/-- On the way to a step there are steps only. -/
theorem reach_successors {a b : String} (h : ReflTransGen (StepEdge steps) a b)
    (hb : (stepIndex steps b).isSome = true) : ReflTransGen (Next (successors steps)) a b := by
  induction h with
  | refl => exact .refl
  | tail _ hstep ih => exact .tail (ih hstep.source) (mem_successors.mpr ⟨hstep, hb⟩)

theorem cycle_successors {a b : String} (h : TransGen (StepEdge steps) a b)
    (hb : (stepIndex steps b).isSome = true) : TransGen (Next (successors steps)) a b := by
  induction h with
  | single hstep => exact .single (mem_successors.mpr ⟨hstep, hb⟩)
  | tail _ hstep ih => exact .tail (ih hstep.source) (mem_successors.mpr ⟨hstep, hb⟩)

theorem cyclic_successors_iff {a : String} :
    Cyclic (successors steps) a ↔
      ∃ x, ReflTransGen (StepEdge steps) a x ∧ TransGen (StepEdge steps) x x := by
  have hedge : ∀ x y, Next (successors steps) x y → StepEdge steps x y := fun x y h =>
    (mem_successors.mp h).1
  constructor
  · rintro ⟨x, hx, hcycle⟩
    exact ⟨x, ReflTransGen.mono hedge _ _ hx, TransGen.mono hedge _ _ hcycle⟩
  · rintro ⟨x, hx, hcycle⟩
    obtain ⟨y, hstep, -⟩ := TransGen.head'_iff.mp hcycle
    exact ⟨x, reach_successors hx hstep.source, cycle_successors hcycle hstep.source⟩

/-- **A cycle is found where there is one.** -/
theorem hasCycle_iff {start : SOPStep} (hstart : start ∈ steps) :
    hasCycle steps start.stepId = true ↔
      ∃ x, ReflTransGen (StepEdge steps) start.stepId x ∧ TransGen (StepEdge steps) x x := by
  rw [← cyclic_successors_iff]
  have hnodes : ∀ a, successors steps a ⊆ steps.map (·.stepId) := by
    intro a b hb
    obtain ⟨step, hstep⟩ := Option.isSome_iff_exists.mp (mem_successors.mp hb).2
    rw [← stepIndex_id hstep]
    exact List.mem_map_of_mem (stepIndex_mem hstep)
  refine visit_iff hnodes ?_ (List.mem_map_of_mem hstart)
  rw [List.length_map]
  omega

/-! ## Verified flags -/

variable (steps)

/-- A path from a step: each edge begins where the one before it ended. -/
def IsPath : String → List (String × Option Bool) → Prop
  | _, [] => True
  | a, edge :: path =>
    (∃ step, stepIndex steps a = some step ∧ edge ∈ stepEdges step) ∧ IsPath edge.1 path

/-- The step that a path ends at, and the flag with which it is entered. -/
def enteredBy (e : Entered) (path : List (String × Option Bool)) : Entered :=
  path.foldl (fun e edge => (edge.1, edge.2.getD e.2)) e

/-- One round of the loop in `verified_flags_on_entry`: what is pending, and the flags. -/
def flagRound : List Entered × List Entered → List Entered × List Entered :=
  expand (fun e => (stepIndex steps e.1).isSome) (entries steps)

variable {steps}

theorem mem_entries {e e' : Entered} :
    e' ∈ entries steps e ↔
      ∃ step, stepIndex steps e.1 = some step ∧
        ∃ edge ∈ stepEdges step, (edge.1, edge.2.getD e.2) = e' := by
  unfold entries
  cases hstep : stepIndex steps e.1 with
  | none => simp
  | some step => simp

/-- What can be reached over entries is what a path enters. -/
theorem reach_entries_iff {e e' : Entered} :
    ReflTransGen (Next (entries steps)) e e' ↔
      ∃ path, IsPath steps e.1 path ∧ enteredBy e path = e' := by
  constructor
  · intro h
    induction h using ReflTransGen.head_induction_on with
    | refl => exact ⟨[], trivial, rfl⟩
    | head hstep _ ih =>
      obtain ⟨path, hpath, hend⟩ := ih
      obtain ⟨step, hindex, edge, hedge, rfl⟩ := mem_entries.mp hstep
      exact ⟨edge :: path, ⟨⟨step, hindex, hedge⟩, hpath⟩, hend⟩
  · rintro ⟨path, hpath, hend⟩
    induction path generalizing e with
    | nil =>
      obtain rfl : e = e' := hend
      exact .refl
    | cons edge path ih =>
      obtain ⟨⟨step, hindex, hedge⟩, hrest⟩ := hpath
      exact .head (mem_entries.mpr ⟨step, hindex, edge, hedge, rfl⟩) (ih hrest hend)

/-- **The validator's graph analysis is exact.**  A cycle is found just where one can be reached
from the first step; the loop over pending steps and flags ends, with the flags of
`verified_flags_on_entry`; and these are, of every step, the flags of the paths from the first
step to it. -/
theorem graph_exact (first : SOPStep) (rest : List SOPStep) :
    (hasCycle (first :: rest) first.stepId = true ↔
      ∃ x, ReflTransGen (StepEdge (first :: rest)) first.stepId x ∧
        TransGen (StepEdge (first :: rest)) x x) ∧
      (∃ rounds, (flagRound (first :: rest))^[rounds] ([(first.stepId, false)], []) =
        ([], verifiedFlagsOnEntry (first :: rest))) ∧
      ∀ step ∈ first :: rest, ∀ flag,
        (step.stepId, flag) ∈ verifiedFlagsOnEntry (first :: rest) ↔
          ∃ path, IsPath (first :: rest) first.stepId path ∧
            enteredBy (first.stepId, false) path = (step.stepId, flag) := by
  have hwork := work_allEntered (first :: rest) (first.stepId, false)
  have hlength := entries_length (first :: rest)
  refine ⟨hasCycle_iff (List.mem_cons_self ..), ⟨4 * (first :: rest).length + 2, ?_⟩, ?_⟩
  · refine Prod.ext ?_ ?_
    · exact rounds_end mem_allEntered hlength hwork.le
    · exact (explore_eq_rounds ..).symm
  · intro step hstep flag
    have hadmits : ∀ e e', e' ∈ entries (first :: rest) e →
        (stepIndex (first :: rest) e.1).isSome = true := by
      intro e e' h
      obtain ⟨found, hfound, -⟩ := mem_entries.mp h
      rw [hfound]
      rfl
    refine Iff.trans ?_ (@reach_entries_iff (first :: rest) (first.stepId, false) _)
    refine (explore_iff mem_allEntered hlength hadmits hwork).trans (and_iff_right ?_)
    obtain ⟨found, hfound⟩ := stepIndex_isSome hstep
    rw [hfound]
    rfl

end L1Agent
