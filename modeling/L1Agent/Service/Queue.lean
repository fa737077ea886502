import L1Agent.Actions.Store

/-! # The queue and the record of a run in the database (`service/runs.py`)

The transactions of `RunService` and of the journal.  A job is claimed by one
worker at a time while its lease lasts; `conclude` writes a run's outcome once.
The `record` column, which the dashboard shows, and the events of its stream are
left out: nothing reads them back.

Each function of the service that opens a transaction is one function from the rows to the rows, or
to an exception that leaves them alone.  `DbCall` in `Service/Operations.lean` is the list of them.
-/
namespace L1Agent

/-- `WORKER` -/
def workerActor : String := "system:worker"

/-- An event of the audit log about a run. -/
def runEvent (event : String) (runId : Nat) (payload : List (String × Json)) : AuditEvent where
  actor := workerActor
  event := event
  payload := .ofPairs payload
  correlationId := toString runId

/-- UPDATE of the run with this id. -/
def updateRun (runId : Nat) (f : RunRow → RunRow) (runs : List RunRow) : List RunRow :=
  runs.map fun run => if run.id = runId then f run else run

/-- UPDATE of the job with this id. -/
def updateJob (jobId : Nat) (f : JobRow → JobRow) (jobs : List JobRow) : List JobRow :=
  jobs.map fun job => if job.id = jobId then f job else job

/-! ## Intake -/

/-- `ingest`: the incident is recorded and its run queued, once. -/
def ingest (now : Nat) (maxAttempts : Nat) (actor source : String) (incident : Incident)
    (payloadDigest : String) (db : Db) : Tx (Option Nat) :=
  if db.incidents.any fun i => i.source == source && i.externalId == incident.sysId then
    .ok (none, db)
  else
    let incidentId := db.incidents.length
    let runId := db.runs.length
    .ok (some runId,
      { db with
        incidents := db.incidents ++ [⟨incidentId, source, incident.sysId, incident⟩]
        runs := db.runs ++
          [{ id := runId, incidentId, number := incident.number, state := "received" }]
        jobs := db.jobs ++ [{ id := db.jobs.length, runId, maxAttempts, availableAt := now }]
        audit := db.audit ++
          [{ actor, event := "incident.received", correlationId := toString runId
             payload := .ofPairs [("number", .str incident.number), ("source", .str source),
               ("external_id", .str incident.sysId), ("priority", .int incident.priority),
               ("payload_sha256", .str payloadDigest)] }] })

/-! ## The queue -/

/-- `ClaimedJob` -/
structure ClaimedJob where
  id : Nat
  runId : Nat
  attempts : Nat
  maxAttempts : Nat
  deriving DecidableEq

/-- A job that is waiting for its turn, or whose lease has expired. -/
def JobRow.claimable (now : Nat) (job : JobRow) : Bool :=
  (job.status == .queued && job.availableAt ≤ now) ||
    (job.status == .running && job.lockedUntil.any (· < now))

/-- `claim`: the oldest such job. -/
def claimJob (now lease : Nat) (worker : String) (db : Db) : Tx (Option ClaimedJob) :=
  match db.jobs.find? (·.claimable now) with
  | none => .ok (none, db)
  | some job =>
    .ok (some ⟨job.id, job.runId, job.attempts + 1, job.maxAttempts⟩,
      { db with
        jobs := updateJob job.id (fun job =>
          { job with
            status := .running, attempts := job.attempts + 1
            lockedUntil := some (now + lease), lockedBy := worker }) db.jobs })

/-- `_heartbeat`: one renewal of the lease. -/
def renewLease (now lease jobId : Nat) (worker : String) (db : Db) : Tx Unit :=
  .ok ((),
    { db with
      jobs := updateJob jobId (fun job =>
        if job.lockedBy = worker then { job with lockedUntil := some (now + lease) } else job)
        db.jobs })

/-- `_park`: the job waits, and the run has no outcome. -/
def parkJob (job : ClaimedJob) (number reason : String) (db : Db) : Tx Unit :=
  .ok ((),
    { db with
      jobs := updateJob job.id (fun job =>
        { job with status := .waiting, lockedUntil := none, attempts := 0 }) db.jobs
      runs := updateRun job.runId (fun run => { run with state := "awaiting_approval" }) db.runs
      audit := db.audit ++ [runEvent "run.suspended" job.runId
        [("number", .str number), ("reason", .str reason)]] })

/-- What `_conclude` writes of a summary. -/
structure Conclusion where
  number : String
  outcome : String
  sopId : String
  verifiedBy : String := ""
  reason : Json := .str ""
  /-- The id and the status of each step. -/
  steps : List (String × String) := []
  deriving DecidableEq

/-- `_conclude`: the first conclusion stands. -/
def concludeRun (job : ClaimedJob) (c : Conclusion) (status : JobStatus) (db : Db) : Tx Unit :=
  let first := db.runs.any fun run => run.id == job.runId && run.outcome.isNone
  .ok ((),
    { db with
      runs := updateRun job.runId (fun run =>
        if run.outcome.isNone then
          { run with outcome := some c.outcome, state := c.outcome, sopId := c.sopId }
        else run) db.runs
      jobs := updateJob job.id (fun job => { job with status, lockedUntil := none }) db.jobs
      audit := if first then db.audit ++ [runEvent "run.concluded" job.runId
          [("number", .str c.number), ("outcome", .str c.outcome), ("sop_id", .str c.sopId),
            ("verified_by", .str c.verifiedBy), ("reason", c.reason),
            ("steps", .arr (c.steps.map fun s =>
              .obj [("step_id", .str s.1), ("status", .str s.2)])),
            ("attempts", .int job.attempts)]]
        else db.audit })

/-- `_finish_job` -/
def finishJob (jobId : Nat) (status : JobStatus) (db : Db) : Tx Unit :=
  .ok ((),
    { db with
      jobs := updateJob jobId (fun job => { job with status, lockedUntil := none }) db.jobs })

/-- `_release`: a job is put back after an infrastructure error, with a delay. -/
def releaseJob (now : Nat) (job : ClaimedJob) (error : String) (db : Db) : Tx Unit :=
  .ok ((),
    { db with
      jobs := updateJob job.id (fun row =>
        { row with
          status := .queued, availableAt := now + min 60 (2 ^ job.attempts) * 1000000
          lockedUntil := none, lastError := clipText 500 error }) db.jobs })

/-! ## The journal -/

/-- `_load`: the outcome and the incident. -/
def loadRun (runId : Nat) (db : Db) : Except Exn (Option String × Incident) :=
  match db.runs.find? (·.id == runId) with
  | none => .error (.other "NoResultFound" "No row was found when one was required")
  | some run =>
    match db.incidents.find? (·.id == run.incidentId) with
    | none => .error (.other "NoResultFound" "No row was found when one was required")
    | some incident => .ok (run.outcome, incident.payload)

/-- `StoredMatch` -/
structure StoredMatch where
  sopId : String
  sopVersion : String
  confidence : Rat
  rationale : String
  sopHash : String
  deriving DecidableEq

/-- The journal of a run as an attempt has loaded it. -/
structure LoadedJournal where
  match? : Option StoredMatch
  completed : List (String × StepResult)
  stepsSeen : Nat
  advised : List (String × String)

/-- `DbJournal.load` -/
def loadJournal (runId : Nat) (db : Db) : Except Exn LoadedJournal :=
  match db.runs.find? (·.id == runId) with
  | none => .error (.other "NoResultFound" "No row was found when one was required")
  | some run => (loadRows run.steps).map fun completed =>
    { match? := if run.sopId = "" then none
        else some ⟨run.sopId, run.sopVersion, run.confidence, run.matchRationale, run.sopHash⟩
      completed, stepsSeen := run.steps.length, advised := run.advisedParameters }

/-- `record_match` -/
def recordMatch (runId : Nat) (sop : SOP) (confidence : Rat) (rationale : String) (db : Db) :
    Tx Unit :=
  .ok ((),
    { db with
      runs := updateRun runId (fun run =>
        { run with
          sopId := sop.sopId, sopVersion := sop.version, sopHash := sop.contentHash
          confidence, matchRationale := rationale, state := "executing" }) db.runs
      audit := db.audit ++ [runEvent "run.sop_matched" runId
        [("sop_id", .str sop.sopId), ("sop_version", .str sop.version),
          ("sop_sha256", .str sop.contentHash), ("confidence", .float confidence),
          ("rationale", .str rationale)]] })

/-- `record_advised`: the values a model located are kept. -/
def recordAdvised (runId : Nat) (values : List (String × String)) (db : Db) : Tx Unit :=
  .ok ((),
    { db with
      runs := updateRun runId (fun run =>
        { run with
          advisedParameters := run.advisedParameters.filter (fun p =>
            (values.lookup p.1).isNone) ++ values }) db.runs
      audit := db.audit ++ [runEvent "run.parameters_advised" runId
        [("parameters", .arr (values.map fun p => .str p.1))]] })

/-- `step_started` and `step_completed`. -/
def journalStep (runId : Nat) (o : EngineOp) (db : Db) : Tx Unit :=
  .ok ((),
    { db with
      runs := updateRun runId (fun run => { run with steps := write run.steps o }) db.runs
      audit := db.audit ++ match o with
        | .stepStarted step => [runEvent "step.started" runId
            [("step_id", .str step.stepId), ("step_type", .str step.stepType)]]
        | .stepCompleted step result => [runEvent "step.completed" runId
            [("step_id", .str step.stepId), ("step_type", .str step.stepType),
              ("status", .str result.status.value), ("tool", .str result.toolCalled)]]
        | _ => [] })

end L1Agent
