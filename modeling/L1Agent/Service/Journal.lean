import L1Agent.Engine.Journal

/-! # The journal of a run in the database (`DbJournal` of `service/runs.py`)

The rows of `run_steps` that belong to one run, what each of the journal's writes
leaves in them, and how an attempt reads them back.

An interrupted step has a row without a result: `write` adds it once, however often the step is
started, and `loadRows` passes it over.
-/
namespace L1Agent

/-- A row of `run_steps`, unique by run and step; `none` while it is `started`. -/
structure StepRow where
  stepId : String
  result : Option Json
  deriving DecidableEq

/-- What an operation leaves in the rows of the run. -/
def write (rows : List StepRow) : EngineOp → List StepRow
  -- INSERT .. ON CONFLICT DO NOTHING
  | .stepStarted step =>
    if rows.any (·.stepId == step.stepId) then rows else rows ++ [⟨step.stepId, none⟩]
  | .stepCompleted step result =>
    rows.map fun row =>
      if row.stepId == step.stepId then { row with result := some result.toDict } else row
  | _ => rows

/-- `DbJournal.load`: the recorded results, read back from their JSON. -/
def loadRows : List StepRow → Except Exn (List (String × StepResult))
  | [] => .ok []
  | row :: rows =>
    match row.result with
    | none => loadRows rows
    | some json =>
      match StepResult.fromDict json with
      | none => .error (.other "ValueError" "not a step result")
      | some result => (loadRows rows).map ((row.stepId, result) :: ·)

end L1Agent
