import L1Agent.Engine.Executor
import L1Agent.Service.Journal

/-! # Crash and resume (`DbJournal` of `service/runs.py`)

An execution carries out a sequence of operations; a crash leaves the first few of
them done.  The next attempt starts from the rows of `run_steps` and walks the SOP
again, replaying the recorded results.

With the answers of the outside world fixed, an attempt that starts from such rows
ends as the uninterrupted execution does (`crash_resume`).  The argument: every
recorded result is the one that the uninterrupted walk has for the step
(`RowsRight`), so the two walks go through the same steps (`replay_eval`); and the
operations of an attempt come in rounds, each of a step that is not on record
(`Rounds`).

What a journal may hold is said against the walk that it is replayed in (`Replays`), and rows that
are right load into one that holds just that (`load_right`).  `resume_attempt` is one attempt;
`crash_resume` is any number of them, each broken off anywhere, and says besides that no step is
executed again that is on record.
-/
namespace L1Agent
open Interleaving

/-! ## What is on record -/

/-- The step is on record as completed. -/
def completedIn (rows : List StepRow) (stepId : String) : Bool :=
  rows.any fun row => row.stepId == stepId && row.result.isSome

/-- The step an operation is part of executing. -/
def EngineOp.executes : EngineOp → Option String
  | .stepStarted step => some step.stepId
  | .callAdapter _ _ stepId _ => some stepId
  | .perform step => some step.stepId
  | _ => none

/-! ## Attempts -/

/-- The outside world, with its answer to each call fixed. -/
structure World where
  connectors : Except Exn Unit := .ok ()
  callAdapter : String → Json → String → Nat → Except Exn CallAnswer
  perform : SOPStep → Except Exn ActionAnswer
  extract : List ParameterSpec → Except Exn (List (String × Json)) := fun _ => .ok []

/-- The journal's writes succeed. -/
def World.answer (w : World) : (o : EngineOp) → EngineCalls.Ans o
  | .connectors => w.connectors
  | .stepStarted _ => .ok ()
  | .stepCompleted _ _ => .ok ()
  | .callAdapter name parameters stepId attempt => w.callAdapter name parameters stepId attempt
  | .perform step => w.perform step
  | .extract askable => w.extract askable
  | .recordAdvised _ => .ok ()

section
variable (w : World) (eng : Engine) (inc : Incident) (sop : SOP) (advisor : Bool)

/-- An attempt that starts from these rows. -/
def resume (rows : List StepRow) : Engine.Prog ExecutionSummary :=
  match loadRows rows with
  | .error e => .raise e
  | .ok completed => Executor.executeSop eng inc sop (some { completed }) advisor

/-- What has been done so far in a run, over all its attempts. -/
structure History where
  rows : List StepRow := []
  done : List EngineOp := []

/-- An attempt that dies after `k` operations. -/
def History.crash (h : History) (k : Nat) : History :=
  let done := ((resume eng inc sop advisor h.rows).ops w.answer).take k
  { rows := done.foldl write h.rows, done := h.done ++ done }

/-- The run after attempts that died after so many operations each. -/
def crashed (ks : List Nat) : History :=
  ks.foldl (History.crash w eng inc sop advisor) {}

end

/-- After a step's completion has been committed the step is not executed again. -/
def NeverAgain (done : List EngineOp) : Prop :=
  ∀ before step result after, done = before ++ .stepCompleted step result :: after →
    ∀ o ∈ after, o.executes ≠ some step.stepId

/-! ## An attempt keeps to what is on record -/

/-- No operation executes a step that is on record, and only a step that was
started is completed. -/
def Lawful : List StepRow → List EngineOp → Prop
  | _, [] => True
  | rows, o :: os =>
    (∀ stepId, o.executes = some stepId → completedIn rows stepId = false) ∧
    (∀ step result, o = .stepCompleted step result → rows.any (·.stepId == step.stepId) = true) ∧
    Lawful (write rows o) os

theorem lawful_append {rows : List StepRow} {a b : List EngineOp} :
    Lawful rows (a ++ b) ↔ Lawful rows a ∧ Lawful (a.foldl write rows) b := by
  induction a generalizing rows with
  | nil => simp [Lawful]
  | cons o a ih => simp only [List.cons_append, Lawful, List.foldl_cons, ih, and_assoc]

theorem completedIn_iff {rows : List StepRow} {stepId : String} :
    completedIn rows stepId = true ↔
      ∃ row ∈ rows, row.stepId = stepId ∧ row.result.isSome = true := by
  simp [completedIn]

/-- What is on record stays on record. -/
theorem completedIn_write {rows : List StepRow} {stepId : String} (o : EngineOp)
    (h : completedIn rows stepId = true) : completedIn (write rows o) stepId = true := by
  obtain ⟨row, hrow, hid, hres⟩ := completedIn_iff.mp h
  refine completedIn_iff.mpr ?_
  cases o with
  | stepStarted step =>
    simp only [write]
    split
    · exact ⟨row, hrow, hid, hres⟩
    · exact ⟨row, List.mem_append_left _ hrow, hid, hres⟩
  | stepCompleted step result =>
    refine ⟨_, List.mem_map_of_mem hrow, ?_⟩
    split
    · exact ⟨hid, rfl⟩
    · exact ⟨hid, hres⟩
  | connectors => exact ⟨row, hrow, hid, hres⟩
  | callAdapter => exact ⟨row, hrow, hid, hres⟩
  | perform => exact ⟨row, hrow, hid, hres⟩
  | extract => exact ⟨row, hrow, hid, hres⟩
  | recordAdvised => exact ⟨row, hrow, hid, hres⟩

theorem completedIn_completed {rows : List StepRow} {step : SOPStep} {result : StepResult}
    (h : rows.any (·.stepId == step.stepId) = true) :
    completedIn (write rows (.stepCompleted step result)) step.stepId = true := by
  obtain ⟨row, hrow, hid⟩ := List.any_eq_true.mp h
  refine completedIn_iff.mpr ⟨_, List.mem_map_of_mem hrow, ?_⟩
  rw [if_pos hid]
  exact ⟨by simpa using hid, rfl⟩

/-- While a step is on record, lawful operations do not execute it. -/
theorem Lawful.spares {rows : List StepRow} {os : List EngineOp} {stepId : String}
    (h : Lawful rows os) (hdone : completedIn rows stepId = true) :
    ∀ o ∈ os, o.executes ≠ some stepId := by
  induction os generalizing rows with
  | nil => exact fun o ho => absurd ho List.not_mem_nil
  | cons o os ih =>
    obtain ⟨hexec, -, hrest⟩ := h
    intro o' ho' hid
    rcases List.mem_cons.mp ho' with rfl | ho'
    · rw [hexec stepId hid] at hdone
      cases hdone
    · exact ih hrest (completedIn_write o hdone) o' ho' hid

theorem Lawful.neverAgain {rows : List StepRow} {os : List EngineOp} (h : Lawful rows os) :
    NeverAgain os := by
  rintro before step result after rfl
  rw [lawful_append] at h
  obtain ⟨-, -, hknown, hafter⟩ := h
  exact hafter.spares (completedIn_completed (hknown step result rfl))

/-! ## The operations of an attempt come in rounds -/

/-- An operation that is part of executing the step, its start apart. -/
def Within (step : SOPStep) (o : EngineOp) : Prop :=
  (∃ name parameters attempt, o = .callAdapter name parameters step.stepId attempt) ∨
    o = .perform step

/-- Rounds of operations: each starts a step that is not `closed`, executes it, and
completes it with a result that is `Right`, or is the last. -/
inductive Rounds (Right : SOPStep → StepResult → Prop) : List String → List EngineOp → Prop
  | nil (closed : List String) : Rounds Right closed []
  | cut {closed : List String} {step : SOPStep} {os : List EngineOp}
      (hnew : step.stepId ∉ closed) (hos : ∀ o ∈ os, Within step o) :
      Rounds Right closed (.stepStarted step :: os)
  | round {closed : List String} {step : SOPStep} {os rest : List EngineOp} {result : StepResult}
      (hnew : step.stepId ∉ closed) (hos : ∀ o ∈ os, Within step o) (hright : Right step result)
      (hrest : Rounds Right (step.stepId :: closed) rest) :
      Rounds Right closed (.stepStarted step :: (os ++ .stepCompleted step result :: rest))

theorem Rounds.mono {Right : SOPStep → StepResult → Prop} {closed closed' : List String}
    {os : List EngineOp} (h : Rounds Right closed os) (hsub : closed' ⊆ closed) :
    Rounds Right closed' os := by
  induction h generalizing closed' with
  | nil => exact .nil _
  | cut hnew hos => exact .cut (fun hmem => hnew (hsub hmem)) hos
  | round hnew hos hright _ ih =>
    refine .round (fun hmem => hnew (hsub hmem)) hos hright (ih ?_)
    exact List.cons_subset_cons _ hsub

theorem Rounds.right {Right : SOPStep → StepResult → Prop} {closed : List String}
    {os : List EngineOp} (h : Rounds Right closed os) :
    ∀ step result, .stepCompleted step result ∈ os → Right step result := by
  have hwithin : ∀ {s : SOPStep} {os : List EngineOp}, (∀ o ∈ os, Within s o) →
      ∀ step result, .stepCompleted step result ∉ os := by
    intro s os hos step result hmem
    rcases hos _ hmem with ⟨name, parameters, attempt, h⟩ | h
    · cases h
    · cases h
  induction h with
  | nil => exact fun _ _ h => absurd h List.not_mem_nil
  | cut _ hos =>
    intro step result hmem
    rcases List.mem_cons.mp hmem with h | h
    · cases h
    · exact absurd h (hwithin hos step result)
  | round _ hos hright _ ih =>
    intro step result hmem
    rcases List.mem_cons.mp hmem with h | h
    · cases h
    rcases List.mem_append.mp h with h | h
    · exact absurd h (hwithin hos step result)
    rcases List.mem_cons.mp h with h | h
    · cases h
      exact hright
    · exact ih step result h

theorem write_within {step : SOPStep} {os : List EngineOp} (hos : ∀ o ∈ os, Within step o)
    (rows : List StepRow) : os.foldl write rows = rows := by
  induction os with
  | nil => rfl
  | cons o os ih =>
    have ho : write rows o = rows := by
      rcases hos o (List.mem_cons_self ..) with ⟨name, parameters, attempt, rfl⟩ | rfl
      · rfl
      · rfl
    rw [List.foldl_cons, ho]
    exact ih fun o' ho' => hos o' (List.mem_cons_of_mem _ ho')

theorem lawful_within {step : SOPStep} {os : List EngineOp} (hos : ∀ o ∈ os, Within step o)
    {rows : List StepRow} (hnew : completedIn rows step.stepId = false) : Lawful rows os := by
  induction os with
  | nil => exact True.intro
  | cons o os ih =>
    have hrest := ih fun o' ho' => hos o' (List.mem_cons_of_mem _ ho')
    rcases hos o (List.mem_cons_self ..) with ⟨name, parameters, attempt, rfl⟩ | rfl
    · exact ⟨fun i hi => by cases hi; exact hnew, fun _ _ h => (by cases h), hrest⟩
    · exact ⟨fun i hi => by cases hi; exact hnew, fun _ _ h => (by cases h), hrest⟩

theorem completedIn_started {rows : List StepRow} {step : SOPStep} {stepId : String} :
    completedIn (write rows (.stepStarted step)) stepId = completedIn rows stepId := by
  simp only [write]
  split
  · rfl
  · simp [completedIn]

theorem known_started (rows : List StepRow) (step : SOPStep) :
    (write rows (.stepStarted step)).any (·.stepId == step.stepId) = true := by
  simp only [write]
  split
  · assumption
  · simp

/-- **Rounds are lawful** where the closed steps include those on record. -/
theorem Rounds.lawful {Right : SOPStep → StepResult → Prop} {closed : List String}
    {os : List EngineOp} (h : Rounds Right closed os) {rows : List StepRow}
    (hclosed : ∀ stepId, completedIn rows stepId = true → stepId ∈ closed) : Lawful rows os := by
  have hopen : ∀ {closed : List String} {rows : List StepRow} {step : SOPStep},
      (∀ stepId, completedIn rows stepId = true → stepId ∈ closed) → step.stepId ∉ closed →
      completedIn rows step.stepId = false := by
    intro closed rows step hclosed hnew
    rw [← Bool.not_eq_true]
    exact fun hdone => hnew (hclosed _ hdone)
  induction h generalizing rows with
  | nil => exact True.intro
  | cut hnew hos =>
    have hrow := hopen hclosed hnew
    refine ⟨fun i hi => by cases hi; exact hrow, fun _ _ h => (by cases h), ?_⟩
    exact lawful_within hos (completedIn_started.trans hrow)
  | @round closed step os rest result hnew hos hright hrest ih =>
    have hrow := hopen hclosed hnew
    refine ⟨fun i hi => by cases hi; exact hrow, fun _ _ h => (by cases h), ?_⟩
    rw [lawful_append, write_within hos]
    refine ⟨lawful_within hos (completedIn_started.trans hrow), fun _ h => (by cases h), ?_, ?_⟩
    · rintro _ _ ⟨⟩
      exact known_started rows step
    · refine ih fun stepId hdone => ?_
      by_cases hid : stepId = step.stepId
      · rw [hid]
        exact List.mem_cons_self ..
      · refine List.mem_cons_of_mem _ (hclosed stepId ?_)
        rw [← @completedIn_started rows step]
        obtain ⟨row, hrow, hrid, hres⟩ := completedIn_iff.mp hdone
        obtain ⟨old, hold, rfl⟩ := List.mem_map.mp hrow
        split at hrid
        · rename_i heq
          exact absurd (hrid.symm.trans (by simpa using heq)) hid
        · rename_i hne
          rw [if_neg hne] at hres
          exact completedIn_iff.mpr ⟨old, hold, hrid, hres⟩

/-! ## The walk under fixed answers -/

namespace Executor
variable {w : World} {eng : Engine} {inc : Incident} {steps : List SOPStep}
  {values : List (String × Json)} {step : SOPStep} {state : RunState} {result : StepResult}

/-- A call of a connector that is part of executing the step. -/
def Reads (step : SOPStep) (o : EngineOp) : Prop :=
  ∃ name parameters attempt, o = .callAdapter name parameters step.stepId attempt

theorem verifyReads_reads {check : String} {checkParams assertion : Json}
    {ctx : List (String × Json)} {n attempt : Nat} {lastError tool : String}
    {last : Option AdapterResult} :
    (verifyReads eng step check checkParams assertion ctx n attempt lastError last tool).Issues
      (Reads step) := by
  induction n generalizing attempt lastError tool last with
  | zero => exact True.intro
  | succ n ih =>
    refine ⟨⟨check, checkParams, attempt, rfl⟩, ?_⟩
    rintro (e | a)
    · exact True.intro
    · change (if a.status = .error then _ else _ : Engine.Prog StepResult).Issues _
      split
      · exact True.intro
      split
      · exact ih
      split
      · exact True.intro
      · exact ih
      · exact ih
      · exact True.intro

/-- **What executing a step calls**: connectors, and the pipeline for an ACTION step. -/
theorem executeStep_calls {done : List StepResult} :
    (executeStep eng inc done values state step).Issues fun o : EngineOp =>
      Reads step o ∨ o = .perform step ∧ step.type? = some .action := by
  unfold executeStep
  split
  · exact True.intro
  refine Program.Issues.tryCatch ?_ fun e => ?_
  · unfold dispatch
    split
    · exact Program.issues_ofExcept _
    · exact Program.issues_ofExcept _
    · refine Program.Issues.bind (Program.issues_ofExcept _) fun named => ?_
      simp only
      split
      · exact verifyReads_reads.mono fun o => .inl
      · exact True.intro
      · exact True.intro
    · exact Program.issues_ofExcept _
    · exact Program.issues_ofExcept _
    · rename_i haction
      unfold handleAction
      split
      · refine ⟨Or.inr ⟨rfl, haction⟩, ?_⟩
        rintro (e | a)
        · exact True.intro
        · exact True.intro
      · exact True.intro
    · exact True.intro
    · refine ⟨Or.inl ⟨_, _, _, rfl⟩, ?_⟩
      rintro (e | a)
      · exact True.intro
      · change (if a.status = .error then _ else _ : Engine.Prog StepResult).Issues _
        split
        · exact True.intro
        · exact True.intro
  · split
    · exact True.intro
    · exact True.intro

/-- Executing a step calls only what belongs to it. -/
theorem executeStep_within {done : List StepResult} :
    (executeStep eng inc done values state step).Issues (Within step) :=
  executeStep_calls.mono fun _ h => h.imp_right And.left

/-- A result whose output can be shown. -/
def Shown (result : StepResult) : Prop := ∃ v, sliced 300 result.outputSummary = .ok v

/-- What can be cut at one length can be cut at any. -/
theorem Shown.sliced {result : StepResult} (h : Shown result) (n : Nat) :
    ∃ v, Executor.sliced n result.outputSummary = .ok v := by
  obtain ⟨v, hv⟩ := h
  cases hout : result.outputSummary <;> simp_all [Executor.sliced, Json.slice]

/-- Telling of a result that can be shown succeeds, and commits it. -/
theorem tell_shown (w : World) (step : SOPStep) (h : Shown result) :
    (tell true step result).eval w.answer = .ok () ∧
    (tell true step result).ops w.answer = [.stepCompleted step result] := by
  obtain ⟨v, hv⟩ := h.sliced 300
  obtain ⟨v', hv'⟩ := h.sliced 200
  unfold tell
  simp only [if_true, hv, hv']
  exact ⟨rfl, rfl⟩

/-- A result that cannot be shown is not committed. -/
theorem tell_not_shown (w : World) (step : SOPStep) (h : ¬ Shown result) :
    ∃ e, (tell true step result).eval w.answer = .error e ∧
      (tell true step result).ops w.answer = [] := by
  unfold tell
  simp only [if_true]
  cases hs : sliced 300 result.outputSummary with
  | ok v => exact absurd ⟨v, hs⟩ h
  | error e => exact ⟨e, rfl, rfl⟩

/-- What executing the step gives, its start on record. -/
def fresh (w : World) (eng : Engine) (inc : Incident) (values : List (String × Json)) (l : Loop)
    (state : RunState) (step : SOPStep) : Except Exn StepResult :=
  (executeStep eng inc (results l.went) values state step).eval w.answer

/-- **A step that is executed**: the three ways it can end. -/
theorem executeAndRecord_eval (l : Loop) :
    let run := executeAndRecord eng inc values true l state step
    (∃ e os, fresh w eng inc values l state step = .error e ∧ (∀ o ∈ os, Within step o) ∧
      run.eval w.answer = .error ⟨.executing, e, l.went ++ [⟨step, l.state, none⟩]⟩ ∧
      run.ops w.answer = .stepStarted step :: os) ∨
    (∃ result e os, fresh w eng inc values l state step = .ok result ∧ ¬ Shown result ∧
      (∀ o ∈ os, Within step o) ∧
      run.eval w.answer = .error ⟨.executing, e, l.went ++ [⟨step, l.state, some result⟩]⟩ ∧
      run.ops w.answer = .stepStarted step :: os) ∨
    (∃ result os, fresh w eng inc values l state step = .ok result ∧ Shown result ∧
      (∀ o ∈ os, Within step o) ∧ run.eval w.answer = .ok result ∧
      run.ops w.answer = .stepStarted step :: (os ++ [.stepCompleted step result])) := by
  intro run
  have hos : ∀ o ∈ (executeStep eng inc (results l.went) values state step).ops w.answer,
      Within step o := executeStep_within.ops
  have heval : (executeStarted eng inc values true l state step).eval w.answer =
      fresh w eng inc values l state step := rfl
  have hops : (executeStarted eng inc values true l state step).ops w.answer =
      .stepStarted step :: (executeStep eng inc (results l.went) values state step).ops w.answer :=
    rfl
  have hrun : run = (guarded (l.went ++ [⟨step, l.state, none⟩])
      (executeStarted eng inc values true l state step)).bind fun result =>
    (guarded (l.went ++ [⟨step, l.state, some result⟩]) (tell true step result)).bind fun _ =>
      pure result := rfl
  rw [hrun]
  simp only [guarded, Program.eval_bind, Program.ops_bind, Program.eval_mapExn,
    Program.ops_mapExn, heval, hops]
  cases hfresh : fresh w eng inc values l state step with
  | error e => exact Or.inl ⟨e, _, rfl, hos, rfl, by simp [Except.mapError]⟩
  | ok result =>
    refine Or.inr ?_
    simp only [Except.mapError]
    by_cases hshown : Shown result
    · obtain ⟨ht, hto⟩ := tell_shown w step hshown
      refine Or.inr ⟨result, _, rfl, hshown, hos, ?_, ?_⟩
      · rw [ht]
        rfl
      · rw [ht, hto]
        rfl
    · obtain ⟨e, ht, hto⟩ := tell_not_shown w step hshown
      refine Or.inl ⟨result, e, _, rfl, hshown, hos, ?_, ?_⟩
      · rw [ht]
      · rw [ht, hto]
        simp

/-- The walk only ever adds to the steps gone through. -/
theorem went_prefix {l : Loop} {n : Nat} (hc : l.Counted steps)
    (hn : steps.length < n + l.visited.length) :
    l.went <+: wentThrough ((runLoop eng inc steps values true n l).eval w.answer) := by
  refine (runLoop_always (fun l' => l.went <+: l'.went) (fun _ _ _ _ => True)
    (Q := fun r => l.went <+: wentThrough r) ?_ ?_ ?_ ?_ ?_ List.prefix_rfl hc hn).eval
  · exact fun _ _ _ _ _ => Program.Always.trivial fun _ _ _ => True.intro
  · exact fun l' hl _ => hl
  · exact fun l' hl _ _ => hl
  · exact fun l' step result e hl _ _ => hl.trans (List.prefix_append _ _)
  · exact fun l' step result state p hl _ _ _ _ _ => hl.trans (List.prefix_append _ _)

/-- No step is gone through twice. -/
theorem went_nodup {l : Loop} {n : Nat} (hc : l.Counted steps)
    (hn : steps.length < n + l.visited.length)
    (hvis : l.visited = (l.went.map (·.step.stepId)).reverse) :
    ((wentThrough ((runLoop eng inc steps values true n l).eval w.answer)).map
      (·.step.stepId)).Nodup := by
  have hsnoc : ∀ (l' : Loop) (step : SOPStep) (result : Option StepResult),
      l'.visited = (l'.went.map (·.step.stepId)).reverse ∧ l'.visited.Nodup →
      l'.current steps = some step →
      ((l'.went ++ [(⟨step, l'.state, result⟩ : Visit)]).map (·.step.stepId)).Nodup := by
    rintro l' step result ⟨hvis, hnd⟩ hcur
    obtain ⟨-, hnew, hid, -⟩ := current_eq_some hcur
    rw [hvis, List.mem_reverse, ← hid] at hnew
    rw [hvis, List.nodup_reverse] at hnd
    rw [List.map_append, List.nodup_append]
    refine ⟨hnd, List.nodup_singleton _, fun a ha b hb => ?_⟩
    rw [List.mem_singleton.mp hb]
    rintro rfl
    exact hnew ha
  refine (runLoop_always
    (fun l' => l'.visited = (l'.went.map (·.step.stepId)).reverse ∧ l'.visited.Nodup)
    (fun _ _ _ _ => True) (Q := fun r => ((wentThrough r).map (·.step.stepId)).Nodup)
    ?_ ?_ ?_ ?_ ?_ ⟨hvis, hc.1⟩ hc hn).eval
  · exact fun _ _ _ _ _ => Program.Always.trivial fun _ _ _ => True.intro
  · rintro l' ⟨hv, hnd⟩ -
    rw [hv, List.nodup_reverse] at hnd
    exact hnd
  · rintro l' ⟨hv, hnd⟩ - -
    rw [hv, List.nodup_reverse] at hnd
    exact hnd
  · exact fun l' step result e hl hcur _ => hsnoc l' step result hl hcur
  · rintro l' step result state p ⟨hv, hnd⟩ hcur - - - -
    obtain ⟨-, hnew, hid, -⟩ := current_eq_some hcur
    refine ⟨?_, List.nodup_cons.mpr ⟨hnew, hnd⟩⟩
    simp [Loop.next, hv, hid]

/-- **What a journal may hold** for a walk that goes through `went`: the results that
this walk has for the steps that are still ahead. -/
def Replays (went : List Visit) (visited : List String)
    (completed : List (String × StepResult)) : Prop :=
  ∀ stepId, stepId ∉ visited → ∀ result, completed.lookup stepId = some result →
    Shown result ∧ ∀ v ∈ went, v.step.stepId = stepId → v.result = some result

/-- The rest of a round, once the step has its result. -/
def afterResult (eng : Engine) (inc : Incident) (steps : List SOPStep)
    (values : List (String × Json)) (n : Nat) (l : Loop) (step : SOPStep) (state : RunState)
    (result : StepResult) : Program EngineCalls Fault Ending :=
  (guarded (l.went ++ [⟨step, l.state, some result⟩])
    (Program.ofExcept (advance eng step result state l.verifiedBy l.reason))).bind fun p =>
  runLoop eng inc steps values true n (l.next true step result p)

/-- Whatever happens after the result, the step is among those gone through. -/
theorem afterResult_went {l : Loop} {n : Nat} (hc : l.Counted steps)
    (hcur : l.current steps = some step) (hn : steps.length < n + 1 + l.visited.length) :
    ⟨step, l.state, some result⟩ ∈
      wentThrough ((afterResult eng inc steps values n l step state result).eval w.answer) := by
  unfold afterResult guarded
  rw [Program.eval_bind, Program.eval_mapExn, Program.eval_ofExcept]
  cases advance eng step result state l.verifiedBy l.reason with
  | error e => exact List.mem_append_right _ (List.mem_singleton_self _)
  | ok p =>
    have hlen : steps.length < n + (l.next true step result p).visited.length := by
      simp only [Loop.next, List.length_cons]
      omega
    have hpre : (l.next true step result p).went <+: wentThrough
        ((runLoop eng inc steps values true n (l.next true step result p)).eval w.answer) :=
      went_prefix (counted_next hc hcur) hlen
    exact hpre.subset (List.mem_append_right _ (List.mem_singleton_self _))

/-- One round, under fixed answers. -/
theorem runLoop_eval {l : Loop} {n : Nat} (hrun : l.state.isTerminal = false)
    (hcur : l.current steps = some step) :
    (runLoop eng inc steps values true (n + 1) l).eval w.answer =
      match started step l.state with
      | .error e => .error ⟨.executing, e, l.went ++ [⟨step, l.state, none⟩]⟩
      | .ok state =>
        match (obtainResult eng inc values true l state step).eval w.answer with
        | .error f => .error f
        | .ok result => (afterResult eng inc steps values n l step state result).eval w.answer := by
  rw [runLoop_round hrun hcur, Program.eval_bind, guarded, Program.eval_mapExn,
    Program.eval_ofExcept]
  cases started step l.state with
  | error e => rfl
  | ok state =>
    simp only [Except.mapError]
    rw [Program.eval_bind]
    cases (obtainResult eng inc values true l state step).eval w.answer with
    | error f => rfl
    | ok result => rfl

/-- A step that the journal holds a result for has this result in the walk that
executes it. -/
theorem obtain_replayed {l : Loop} {n : Nat} {completed : List (String × StepResult)}
    (hc : l.Counted steps) (hn : steps.length < n + 1 + l.visited.length)
    (hrun : l.state.isTerminal = false) (hcur : l.current steps = some step)
    (hstart : started step l.state = .ok state)
    (hnew : l.completed.lookup step.stepId = none)
    (hrep : Replays (wentThrough ((runLoop eng inc steps values true (n + 1) l).eval w.answer))
      l.visited completed) :
    (obtainResult eng inc values true { l with completed } state step).eval w.answer =
      (obtainResult eng inc values true l state step).eval w.answer := by
  have hfresh : obtainResult eng inc values true l state step =
      executeAndRecord eng inc values true l state step := by rw [obtainResult, hnew]
  cases hrec : completed.lookup step.stepId with
  | none =>
    rw [hfresh, obtainResult]
    simp only [hrec]
    rfl
  | some recorded =>
    obtain ⟨-, hvis, hid, -⟩ := current_eq_some hcur
    obtain ⟨hshown, hmatch⟩ := hrep step.stepId (hid ▸ hvis) recorded hrec
    have hmatch : ∀ result, ⟨step, l.state, result⟩ ∈
        wentThrough ((runLoop eng inc steps values true (n + 1) l).eval w.answer) →
        result = some recorded := fun result hmem => hmatch _ hmem rfl
    rw [runLoop_eval hrun hcur, hstart] at hmatch
    simp only [hfresh] at hmatch
    have hgiven : obtainResult eng inc values true { l with completed } state step =
        .ret recorded := by
      rw [obtainResult]
      simp only [hrec]
      rfl
    rw [hgiven, hfresh]
    rcases executeAndRecord_eval (w := w) l with ⟨e, os, -, -, heval, -⟩ |
      ⟨result, e, os, -, hnot, -, heval, -⟩ | ⟨result, os, -, -, -, heval, -⟩
    · rw [heval] at hmatch
      have hbad := hmatch none (List.mem_append_right _ (List.mem_singleton_self _))
      cases hbad
    · rw [heval] at hmatch
      have heq := hmatch (some result) (List.mem_append_right _ (List.mem_singleton_self _))
      cases heq
      exact absurd hshown hnot
    · rw [heval] at hmatch
      have heq := hmatch (some result) (afterResult_went hc hcur hn)
      cases heq
      rw [heval]
      rfl

/-- A round changes what the journal holds for its own step only. -/
theorem next_lookup {l : Loop} {p : Position} {stepId : String} (hid : step.stepId = l.currentId)
    (hout : stepId ∉ l.currentId :: l.visited) :
    (l.next true step result p).completed.lookup stepId = l.completed.lookup stepId := by
  simp only [Loop.next]
  split
  · rw [List.lookup_cons]
    split
    · rename_i heq
      have heq : stepId = step.stepId := by simpa using heq
      exact absurd (heq.trans hid ▸ List.mem_cons_self ..) hout
    · rfl
  · rfl

/-- **The replaying walk goes the same way.**  The induction is on the rounds left;
the two walks differ only in what their journals hold. -/
theorem replay_eval {n : Nat} {l : Loop} {completed : List (String × StepResult)}
    (hc : l.Counted steps) (hn : steps.length < n + l.visited.length)
    (hnew : ∀ stepId, stepId ∉ l.visited → l.completed.lookup stepId = none)
    (hrep : Replays (wentThrough ((runLoop eng inc steps values true n l).eval w.answer))
      l.visited completed) :
    (runLoop eng inc steps values true n { l with completed }).eval w.answer =
      (runLoop eng inc steps values true n l).eval w.answer := by
  induction n generalizing l completed with
  | zero => rfl
  | succ n ih =>
    cases hrun : l.state.isTerminal with
    | true =>
      rw [runLoop, runLoop, if_pos hrun, if_pos hrun]
      rfl
    | false =>
    cases hcur : l.current steps with
    | none =>
      have hcur' : ({ l with completed } : Loop).current steps = none := hcur
      rw [runLoop, runLoop, if_neg (by simp [hrun]), if_neg (by simp [hrun]), hcur, hcur']
      rfl
    | some step =>
    have hcur' : ({ l with completed } : Loop).current steps = some step := hcur
    rw [runLoop_eval (l := { l with completed }) hrun hcur', runLoop_eval hrun hcur]
    obtain ⟨-, hvis, hid, -⟩ := current_eq_some hcur
    cases hstart : started step l.state with
    | error e => rfl
    | ok state =>
    simp only
    have hobt := obtain_replayed hc hn hrun hcur hstart (hnew _ (hid ▸ hvis)) hrep
    rw [hobt]
    rw [runLoop_eval hrun hcur, hstart] at hrep
    simp only at hrep
    cases hres : (obtainResult eng inc values true l state step).eval w.answer with
    | error f => rfl
    | ok result =>
    rw [hres] at hrep
    simp only at hrep ⊢
    unfold afterResult guarded at hrep ⊢
    simp only [Program.eval_bind, Program.eval_mapExn, Program.eval_ofExcept] at hrep ⊢
    cases hadv : advance eng step result state l.verifiedBy l.reason with
    | error e => rfl
    | ok p =>
    rw [hadv] at hrep
    simp only [Except.mapError] at hrep ⊢
    have hnext : ({ l with completed } : Loop).next true step result p =
        { l.next true step result p with
          completed := (({ l with completed } : Loop).next true step result p).completed } := rfl
    rw [hnext]
    refine ih (counted_next hc hcur) ?_ (fun stepId hout => ?_) (fun stepId hout r hr => ?_)
    · simp only [Loop.next, List.length_cons]
      omega
    · exact (next_lookup hid hout).trans
        (hnew stepId fun hmem => hout (List.mem_cons_of_mem _ hmem))
    · exact hrep stepId (fun hmem => hout (List.mem_cons_of_mem _ hmem)) r
        ((next_lookup (l := { l with completed }) hid hout).symm.trans hr)

theorem runLoop_ops {l : Loop} {n : Nat} (hrun : l.state.isTerminal = false)
    (hcur : l.current steps = some step) :
    (runLoop eng inc steps values true (n + 1) l).ops w.answer =
      match started step l.state with
      | .error _ => []
      | .ok state =>
        (obtainResult eng inc values true l state step).ops w.answer ++
        match (obtainResult eng inc values true l state step).eval w.answer with
        | .error _ => []
        | .ok result => (afterResult eng inc steps values n l step state result).ops w.answer := by
  rw [runLoop_round hrun hcur, Program.ops_bind, guarded, Program.ops_mapExn,
    Program.eval_mapExn, Program.eval_ofExcept, Program.ops_ofExcept, List.nil_append]
  cases started step l.state with
  | error e => rfl
  | ok state =>
    simp only [Except.mapError]
    rw [Program.ops_bind]
    cases (obtainResult eng inc values true l state step).eval w.answer with
    | error f => rfl
    | ok result => rfl

/-- The result is one that the walk through `went` has for the step. -/
def Has (went : List Visit) (step : SOPStep) (result : StepResult) : Prop :=
  Shown result ∧ ∃ v ∈ went, v.step.stepId = step.stepId ∧ v.result = some result

/-- **The operations of a replaying walk come in rounds**, of steps that are not on
record, with the results of the uninterrupted walk. -/
theorem replay_rounds {n : Nat} {l : Loop} {completed : List (String × StepResult)}
    {closed : List String} (hc : l.Counted steps) (hn : steps.length < n + l.visited.length)
    (hnew : ∀ stepId, stepId ∉ l.visited → l.completed.lookup stepId = none)
    (hrep : Replays (wentThrough ((runLoop eng inc steps values true n l).eval w.answer))
      l.visited completed)
    (hclosed : ∀ stepId ∈ closed, completed.lookup stepId ≠ none ∨ stepId ∈ l.visited) :
    Rounds (Has (wentThrough ((runLoop eng inc steps values true n l).eval w.answer))) closed
      ((runLoop eng inc steps values true n { l with completed }).ops w.answer) := by
  induction n generalizing l completed closed with
  | zero => exact .nil _
  | succ n ih =>
    cases hrun : l.state.isTerminal with
    | true =>
      rw [runLoop.eq_def _ _ _ _ _ (n + 1) { l with completed }]
      simp only [hrun, if_true]
      exact .nil _
    | false =>
    cases hcur : l.current steps with
    | none =>
      have hcur' : ({ l with completed } : Loop).current steps = none := hcur
      rw [runLoop.eq_def _ _ _ _ _ (n + 1) { l with completed }]
      simp only [hrun, hcur', Bool.false_eq_true, if_false, Loop.exhaust, guarded,
        Program.ops_bind, Program.ops_mapExn, Program.ops_ofExcept, List.nil_append]
      split
      · exact .nil _
      · exact .nil _
    | some step =>
    have hcur' : ({ l with completed } : Loop).current steps = some step := hcur
    rw [runLoop_ops (l := { l with completed }) hrun hcur']
    obtain ⟨-, hvis, hid, -⟩ := current_eq_some hcur
    cases hstart : started step l.state with
    | error e => exact .nil _
    | ok state =>
    simp only
    have hlookup := hnew _ (hid ▸ hvis)
    have hobt := obtain_replayed hc hn hrun hcur hstart hlookup hrep
    have hfresh : obtainResult eng inc values true l state step =
        executeAndRecord eng inc values true l state step := by rw [obtainResult, hlookup]
    rw [hobt]
    rw [runLoop_eval hrun hcur, hstart] at hrep ⊢
    simp only at hrep ⊢
    -- What comes after the result, by the induction hypothesis.
    have hrest : ∀ result, (obtainResult eng inc values true l state step).eval w.answer =
        .ok result → Rounds (Has (wentThrough
          ((afterResult eng inc steps values n l step state result).eval w.answer)))
          (step.stepId :: closed)
          ((afterResult eng inc steps values n { l with completed } step state result).ops
            w.answer) := by
      intro result hres
      rw [hres] at hrep
      simp only at hrep
      unfold afterResult guarded at hrep ⊢
      simp only [Program.eval_bind, Program.eval_mapExn, Program.eval_ofExcept, Program.ops_bind,
        Program.ops_mapExn, Program.ops_ofExcept, List.nil_append] at hrep ⊢
      cases hadv : advance eng step result state l.verifiedBy l.reason with
      | error e => exact .nil _
      | ok p =>
      rw [hadv] at hrep
      simp only [Except.mapError] at hrep ⊢
      have hnext : ({ l with completed } : Loop).next true step result p =
          { l.next true step result p with
            completed := (({ l with completed } : Loop).next true step result p).completed } := rfl
      rw [hnext]
      refine ih (counted_next hc hcur) ?_ (fun stepId hout => ?_) (fun stepId hout r hr => ?_)
        (fun stepId hmem => ?_)
      · simp only [Loop.next, List.length_cons]
        omega
      · exact (next_lookup hid hout).trans
          (hnew stepId fun hmem => hout (List.mem_cons_of_mem _ hmem))
      · exact hrep stepId (fun hmem => hout (List.mem_cons_of_mem _ hmem)) r
          ((next_lookup (l := { l with completed }) hid hout).symm.trans hr)
      · by_cases hout : stepId ∈ l.currentId :: l.visited
        · exact Or.inr hout
        · refine Or.inl ?_
          rw [next_lookup (l := { l with completed }) hid hout]
          rcases List.mem_cons.mp hmem with rfl | hmem
          · exact absurd (hid ▸ List.mem_cons_self ..) hout
          · exact (hclosed stepId hmem).resolve_right fun hv =>
              hout (List.mem_cons_of_mem _ hv)
    cases hrec : completed.lookup step.stepId with
    | some recorded =>
      have hgiven : obtainResult eng inc values true { l with completed } state step =
          .ret recorded := by
        rw [obtainResult]
        simp only [hrec]
        rfl
      have hops : (obtainResult eng inc values true { l with completed } state step).ops w.answer =
          [] := by rw [hgiven]; rfl
      rw [hops, List.nil_append]
      cases hres : (obtainResult eng inc values true l state step).eval w.answer with
      | error f => exact .nil _
      | ok result => exact (hrest result hres).mono (List.subset_cons_self _ _)
    | none =>
      have hopen : step.stepId ∉ closed := by
        intro hmem
        rcases hclosed _ hmem with h | h
        · exact h hrec
        · exact hvis (hid ▸ h)
      have hexec : obtainResult eng inc values true { l with completed } state step =
          executeAndRecord eng inc values true l state step := by
        rw [obtainResult]
        simp only [hrec]
        rfl
      rw [hexec]
      rw [hfresh] at hrest ⊢
      rcases executeAndRecord_eval (w := w) l with ⟨e, os, -, hos, heval, hops⟩ |
        ⟨result, e, os, -, -, hos, heval, hops⟩ | ⟨result, os, -, hshown, hos, heval, hops⟩
      · rw [heval, hops]
        simp only [List.append_nil]
        exact .cut hopen hos
      · rw [heval, hops]
        simp only [List.append_nil]
        exact .cut hopen hos
      · rw [heval, hops]
        simp only
        rw [List.cons_append, List.append_assoc]
        exact .round hopen hos ⟨hshown, _, afterResult_went hc hcur hn, rfl, rfl⟩
          (hrest result heval)

/-! ## The rows hold what the uninterrupted walk has -/

/-- Every recorded result is the one that the walk through `went` has for its step. -/
def RowsRight (went : List Visit) (rows : List StepRow) : Prop :=
  ∀ row ∈ rows, ∀ json, row.result = some json → ∃ result, json = result.toDict ∧
    Shown result ∧ ∀ v ∈ went, v.step.stepId = row.stepId → v.result = some result

/-- **Rows that are right load into a journal that replays.** -/
theorem load_right {went : List Visit} {rows : List StepRow} (h : RowsRight went rows) :
    ∃ completed, loadRows rows = .ok completed ∧ (∀ visited, Replays went visited completed) ∧
      ∀ stepId, completedIn rows stepId = true ↔ completed.lookup stepId ≠ none := by
  induction rows with
  | nil =>
    refine ⟨[], rfl, fun visited stepId hnew r hr => ?_, fun stepId => ?_⟩
    · cases hr
    · simp [completedIn]
  | cons row rows ih =>
    obtain ⟨completed, hload, hrep, hdone⟩ := ih fun r hr => h r (List.mem_cons_of_mem _ hr)
    cases hres : row.result with
    | none =>
      refine ⟨completed, by rw [loadRows, hres]; exact hload, hrep, fun stepId => ?_⟩
      rw [← hdone]
      simp [completedIn, hres]
    | some json =>
      obtain ⟨result, rfl, hshown, hmatch⟩ := h row (List.mem_cons_self ..) json hres
      refine ⟨(row.stepId, result) :: completed, ?_, ?_, fun stepId => ?_⟩
      · rw [loadRows, hres]
        simp only [StepResult.fromDict_toDict, hload]
        rfl
      · intro visited stepId hnew r hr
        rw [List.lookup_cons] at hr
        split at hr
        · rename_i heq
          have heq : stepId = row.stepId := by simpa using heq
          cases hr
          exact ⟨hshown, fun v hv hid => hmatch v hv (hid.trans heq)⟩
        · exact hrep visited stepId hnew r hr
      · rw [List.lookup_cons]
        split
        · rename_i heq
          have heq : stepId = row.stepId := by simpa using heq
          simp [completedIn, hres, heq]
        · rename_i hne
          have hne : row.stepId ≠ stepId := fun he => by simp [he] at hne
          rw [← hdone]
          simp [completedIn, hne]

theorem rowsRight_write {went : List Visit} {rows : List StepRow} {o : EngineOp}
    (hnd : (went.map (·.step.stepId)).Nodup)
    (ho : ∀ step result, o = .stepCompleted step result → Has went step result)
    (h : RowsRight went rows) : RowsRight went (write rows o) := by
  cases o with
  | stepStarted step =>
    simp only [write]
    split
    · exact h
    · intro row hrow json hjson
      rcases List.mem_append.mp hrow with hrow | hrow
      · exact h row hrow json hjson
      · rw [List.mem_singleton.mp hrow] at hjson
        cases hjson
  | stepCompleted step result =>
    intro row hrow json hjson
    obtain ⟨old, hold, rfl⟩ := List.mem_map.mp hrow
    obtain ⟨hshown, u, hu, huid, hures⟩ := ho step result rfl
    split at hjson
    · rename_i heq
      have heq : old.stepId = step.stepId := by simpa using heq
      cases hjson
      refine ⟨result, rfl, hshown, fun v hv hid => ?_⟩
      rw [if_pos (by simpa using heq)] at hid
      have hsame : v = u :=
        List.inj_on_of_nodup_map hnd hv hu (hid.trans (heq.trans huid.symm))
      rw [hsame]
      exact hures
    · rename_i hne
      rw [if_neg hne]
      exact h old hold json hjson
  | connectors => exact h
  | callAdapter => exact h
  | perform => exact h
  | extract => exact h
  | recordAdvised => exact h

theorem rowsRight_writes {went : List Visit} {os : List EngineOp} {rows : List StepRow}
    (hnd : (went.map (·.step.stepId)).Nodup)
    (hos : ∀ step result, .stepCompleted step result ∈ os → Has went step result)
    (h : RowsRight went rows) : RowsRight went (os.foldl write rows) := by
  induction os generalizing rows with
  | nil => exact h
  | cons o os ih =>
    refine ih (fun step result hmem => hos step result (List.mem_cons_of_mem _ hmem))
      (rowsRight_write hnd (fun step result ho => hos step result ?_) h)
    rw [ho]
    exact List.mem_cons_self ..

/-! ## The whole execution -/

section
variable {sop : SOP} {bound : Bound}

/-- With every parameter bound from the ticket, binding asks nobody. -/
theorem bindAndRender_bound (advisor : Bool) (hbound : eng.bindWhatCanBe sop inc = .ok bound)
    (hall : bound.failures = []) (journal : Option RunJournal) :
    bindAndRender eng inc sop journal advisor =
      match sop.steps.mapM (renderStep eng bound.values) with
      | .ok steps => .ret (.ok (bound.values, steps))
      | .error (.parameter message) => .ret (.error message)
      | .error e => .raise e := by
  have hbind : bindAll eng inc sop journal advisor = .ret bound.values := by
    unfold bindAll
    rw [hbound]
    simp only [Program.ofExcept, Program.bind_eq, Program.bind_ret, hall]
    rfl
  unfold bindAndRender
  rw [hbind]
  simp only [Program.bind_eq, Program.bind_ret]
  cases sop.steps.mapM (renderStep eng bound.values) with
  | ok steps => rfl
  | error e => cases e <;> rfl

/-- How the body ends when a step's parameters cannot be rendered. -/
def notRendered : Exn → Except Fault Ending
  | .parameter message =>
    .ok { state := .needsHuman, reason := .str s!"Parameter binding failed: {message}" }
  | e => .error ⟨.binding, e, []⟩

/-- The body of an execution ends before the walk, or walks the rendered steps; in
either case the journal is read by the walk only. -/
theorem body_cases (advisor : Bool) (hbound : eng.bindWhatCanBe sop inc = .ok bound)
    (hall : bound.failures = []) :
    (∃ r, ∀ journal, body eng inc sop journal advisor = Program.ofExcept r) ∨
    ∃ steps, ∀ journal, body eng inc sop journal advisor =
      (guarded [] (request .connectors)).bind fun _ =>
        runSteps eng inc steps bound.values journal := by
  cases hvalid : validateSop eng.catalog sop with
  | cons problem problems =>
    refine Or.inl ⟨.ok { state := .needsHuman, reason := .str ("SOP failed validation: " ++
      "; ".intercalate ((problem :: problems).take 5)) }, fun journal => ?_⟩
    unfold body
    rw [hvalid]
    rfl
  | nil =>
    cases hsteps : sop.steps.mapM (renderStep eng bound.values) with
    | ok steps =>
      refine Or.inr ⟨steps, fun journal => ?_⟩
      unfold body
      rw [hvalid, bindAndRender_bound advisor hbound hall, hsteps]
      rfl
    | error e =>
      refine Or.inl ⟨notRendered e, fun journal => ?_⟩
      unfold body
      rw [hvalid, bindAndRender_bound advisor hbound hall, hsteps]
      cases e <;> rfl

theorem executeSop_eval (advisor : Bool) (journal : Option RunJournal) :
    (executeSop eng inc sop journal advisor).eval w.answer =
      settle inc sop ((body eng inc sop journal advisor).eval w.answer) := by
  unfold executeSop
  rw [Program.eval_bind, Program.eval_attempt]
  exact Program.eval_ofExcept _

theorem executeSop_ops (advisor : Bool) (journal : Option RunJournal) :
    (executeSop eng inc sop journal advisor).ops w.answer =
      (body eng inc sop journal advisor).ops w.answer := by
  unfold executeSop
  rw [Program.ops_bind, Program.ops_attempt, Program.eval_attempt]
  simp

/-- The walk over the rendered steps, from rows that are right. -/
theorem runSteps_replays (w : World) (eng : Engine) (inc : Incident) (steps : List SOPStep)
    (values : List (String × Json)) :
    ∃ went : List Visit, (went.map (·.step.stepId)).Nodup ∧
      ∀ rows completed, RowsRight went rows → loadRows rows = .ok completed →
        (runSteps eng inc steps values (some { completed })).eval w.answer =
          (runSteps eng inc steps values (some {})).eval w.answer ∧
        Rounds (Has went) ((completed.map (·.1)))
          ((runSteps eng inc steps values (some { completed })).ops w.answer) := by
  cases hsteps : steps with
  | nil => exact ⟨[], List.nodup_nil, fun rows completed _ _ => ⟨rfl, .nil _⟩⟩
  | cons first rest =>
    rw [← hsteps]
    let start : Loop := { currentId := first.stepId }
    have hrun : ∀ completed, runSteps eng inc steps values (some { completed }) =
        runLoop eng inc steps values true (steps.length + 1) { start with completed } := by
      intro completed
      rw [hsteps]
      rfl
    have hc : start.Counted steps := ⟨List.nodup_nil, List.nil_subset _⟩
    have hn : steps.length < steps.length + 1 + start.visited.length := by
      show steps.length < steps.length + 1 + 0
      omega
    have hnew : ∀ stepId, stepId ∉ start.visited → start.completed.lookup stepId = none :=
      fun _ _ => rfl
    refine ⟨wentThrough ((runLoop eng inc steps values true (steps.length + 1) start).eval w.answer),
      went_nodup hc hn rfl, fun rows completed hright hload => ?_⟩
    obtain ⟨completed', hload', hrep, -⟩ := load_right hright
    obtain rfl : completed' = completed := by
      rw [hload'] at hload
      cases hload
      rfl
    rw [hrun, hrun]
    refine ⟨replay_eval hc hn hnew (hrep _), replay_rounds hc hn hnew (hrep _) ?_⟩
    intro stepId hmem
    refine Or.inl fun hnone => ?_
    obtain ⟨pair, hpair, rfl⟩ := List.mem_map.mp hmem
    have habsent := List.lookup_eq_none_iff.mp hnone pair hpair
    simp at habsent

/-- **One attempt**, from rows that are right: it ends as the uninterrupted execution
does, keeps to what is on record, and records only what that execution has. -/
theorem resume_attempt (w : World) (advisor : Bool) (hbound : eng.bindWhatCanBe sop inc = .ok bound)
    (hall : bound.failures = []) :
    ∃ went : List Visit, (went.map (·.step.stepId)).Nodup ∧ ∀ rows, RowsRight went rows →
      (resume eng inc sop advisor rows).eval w.answer =
        (executeSop eng inc sop (some {}) advisor).eval w.answer ∧
      Lawful rows ((resume eng inc sop advisor rows).ops w.answer) ∧
      ∀ step result, .stepCompleted step result ∈
        (resume eng inc sop advisor rows).ops w.answer → Has went step result := by
  rcases body_cases advisor hbound hall with ⟨r, hbody⟩ | ⟨steps, hbody⟩
  · refine ⟨[], List.nodup_nil, fun rows hright => ?_⟩
    obtain ⟨completed, hload, -, -⟩ := load_right hright
    simp only [resume, hload, executeSop_eval, executeSop_ops, hbody, Program.ops_ofExcept]
    exact ⟨trivial, trivial, fun _ _ h => absurd h List.not_mem_nil⟩
  · obtain ⟨went, hnd, hwalk⟩ := runSteps_replays w eng inc steps bound.values
    refine ⟨went, hnd, fun rows hright => ?_⟩
    obtain ⟨completed, hload, -, hdone⟩ := load_right hright
    obtain ⟨heval, hrounds⟩ := hwalk rows completed hright hload
    simp only [resume, hload, executeSop_eval, executeSop_ops, hbody]
    have hops : ∀ p : Program EngineCalls Fault Ending,
        ((guarded [] (request .connectors)).bind fun _ => p).ops w.answer =
          .connectors :: match w.connectors with
            | .ok _ => p.ops w.answer
            | .error _ => [] := by
      intro p
      show EngineOp.connectors ::
        (((Program.ofExcept w.connectors : Engine.Prog Unit).mapExn _).bind fun _ => p).ops
          w.answer = _
      cases w.connectors <;> rfl
    have heval' : ∀ p q : Program EngineCalls Fault Ending, p.eval w.answer = q.eval w.answer →
        ((guarded [] (request .connectors)).bind fun _ => p).eval w.answer =
          ((guarded [] (request .connectors)).bind fun _ => q).eval w.answer := by
      intro p q hpq
      rw [Program.eval_bind, Program.eval_bind, hpq]
    rw [hops, heval' _ _ heval]
    refine ⟨rfl, ⟨fun i hi => (by cases hi), fun _ _ h => (by cases h), ?_⟩, ?_⟩
    · cases w.connectors with
      | error e => exact True.intro
      | ok u =>
        refine hrounds.lawful fun stepId hrec => ?_
        have hfound := (hdone stepId).mp hrec
        by_contra hmem
        refine hfound (List.lookup_eq_none_iff.mpr fun pair hpair => ?_)
        have hne : stepId ≠ pair.1 := fun he => hmem (he ▸ List.mem_map_of_mem hpair)
        simpa using hne
    · intro step result hmem
      rcases List.mem_cons.mp hmem with h | h
      · cases h
      · cases hconn : w.connectors with
        | error e =>
          rw [hconn] at h
          cases h
        | ok u =>
          rw [hconn] at h
          exact hrounds.right step result h

end
end Executor

/-- **Crash and resume.**  With every parameter bound from the ticket and the
answers of the outside world fixed, a run whose attempts died after any numbers of
operations ends as the uninterrupted execution does, and no step is executed again
once its completion has been committed. -/
theorem crash_resume (w : World) (eng : Engine) (inc : Incident) (sop : SOP) (advisor : Bool)
    (bound : Bound) (hbound : eng.bindWhatCanBe sop inc = .ok bound) (hall : bound.failures = [])
    (ks : List Nat) :
    let h := crashed w eng inc sop advisor ks
    let last := resume eng inc sop advisor h.rows
    last.eval w.answer = (Executor.executeSop eng inc sop (some {}) advisor).eval w.answer ∧
    NeverAgain (h.done ++ last.ops w.answer) := by
  intro h last
  obtain ⟨went, hnd, hattempt⟩ := Executor.resume_attempt w advisor hbound hall
  -- What every crash leaves behind.
  have hcrashed : Executor.RowsRight went h.rows ∧ Lawful [] h.done ∧ h.rows = h.done.foldl write [] := by
    have hall : ∀ (ks : List Nat) (start : History),
        Executor.RowsRight went start.rows ∧ Lawful [] start.done ∧
          start.rows = start.done.foldl write [] →
        let h := ks.foldl (History.crash w eng inc sop advisor) start
        Executor.RowsRight went h.rows ∧ Lawful [] h.done ∧ h.rows = h.done.foldl write [] := by
      intro ks
      induction ks with
      | nil => exact fun start hstart => hstart
      | cons k ks ih =>
        rintro start ⟨hright, hlawful, hrows⟩
        obtain ⟨-, hops, hhas⟩ := hattempt start.rows hright
        refine ih _ ⟨?_, ?_, ?_⟩
        · exact Executor.rowsRight_writes hnd (fun step result hmem =>
            hhas step result (List.mem_of_mem_take hmem)) hright
        · refine lawful_append.mpr ⟨hlawful, ?_⟩
          rw [← hrows]
          rw [← List.take_append_drop k ((resume eng inc sop advisor start.rows).ops w.answer)]
            at hops
          exact (lawful_append.mp hops).1
        · rw [show (start.crash w eng inc sop advisor k).done = start.done ++
            ((resume eng inc sop advisor start.rows).ops w.answer).take k from rfl,
            List.foldl_append, ← hrows]
          rfl
    exact hall ks {} ⟨fun row hrow => absurd hrow List.not_mem_nil, trivial, rfl⟩
  obtain ⟨hright, hlawful, hrows⟩ := hcrashed
  obtain ⟨heval, hops, -⟩ := hattempt h.rows hright
  refine ⟨heval, Lawful.neverAgain (lawful_append.mpr ⟨hlawful, ?_⟩)⟩
  rw [← hrows]
  exact hops

/-- A queue that is drained, and an action that is never asked for. -/
def sampleWorld : World where
  callAdapter _ _ _ _ := .ok { status := .success, result := some { data := [("depth", .int 0)] } }
  perform _ := .error (.other "ActionError" "no action service")

theorem crash_resume_sample :
    let h := crashed sampleWorld sampleEngine {} sampleSop false [2, 4]
    let last := resume sampleEngine {} sampleSop false h.rows
    last.eval sampleWorld.answer =
      (Executor.executeSop sampleEngine {} sampleSop (some {}) false).eval sampleWorld.answer ∧
    NeverAgain (h.done ++ last.ops sampleWorld.answer) :=
  crash_resume sampleWorld sampleEngine {} sampleSop false ⟨[], [], []⟩ rfl rfl [2, 4]

end L1Agent
