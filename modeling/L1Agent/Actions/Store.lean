import L1Agent.Db.Models

/-! # Action records in the database (`actions/store.py`)

Each function is one transaction: it reads the tenant's tables and either leaves new
ones behind or raises, in which case nothing has been written.  The instant `now` is
the one the transaction reads when it begins.

The constraints of the table are a field of `ActionTable`, so a statement that would break one
raises.  `put_get?` and `add_get?` say what an update and an insertion make of the table.
-/
namespace L1Agent

/-- What a transaction gives: an exception rolls it back. -/
abbrev Tx (α : Type) := Except Exn (α × Db)

/-- `text[:n]` -/
def clipText (n : Nat) (text : String) : String := String.ofList (text.toList.take n)

theorem length_clipText (n : Nat) (text : String) : (clipText n text).length ≤ n := by
  show (String.ofList _).length ≤ n
  rw [String.length_ofList, List.length_take]
  exact Nat.min_le_left ..

/-- `ActionError` and its subclasses. -/
def actionError (kind message : String) : Exn := .other kind message

/-- `ENGINE` -/
def policyEngine : String := "system:policy-engine"

/-- `VERDICT_STATUS` -/
def verdictStatus : Verdict → ActionStatus
  | .deny => .denied
  | .shadow => .shadowed
  | .recommend => .recommended
  | .requireApproval => .pending
  | .allow => .allowed

/-! ## The table -/

namespace ActionTable

/-- UPDATE of the row with this id. -/
def put (t : ActionTable) (row : ActionRow) : Except Exn ActionTable :=
  ofRows (t.rows.map fun r => if r.id = row.id then row else r)

/-- INSERT. -/
def add (t : ActionTable) (row : ActionRow) : Except Exn ActionTable := ofRows (t.rows ++ [row])

theorem ofRows_ok {rows : List ActionRow} {t : ActionTable} (h : ofRows rows = .ok t) :
    t.rows = rows := by
  unfold ofRows at h
  split at h
  · cases h
    rfl
  · cases h

theorem get?_id {t : ActionTable} {id : Nat} {row : ActionRow} (h : t.get? id = some row) :
    row.id = id := by
  simpa using List.find?_some h

theorem get?_mem {t : ActionTable} {id : Nat} {row : ActionRow} (h : t.get? id = some row) :
    row ∈ t.rows := List.mem_of_find?_eq_some h

/-- The ids are distinct, so a row is found under its id. -/
theorem get?_of_mem {t : ActionTable} {row : ActionRow} (h : row ∈ t.rows) :
    t.get? row.id = some row := by
  obtain ⟨found, hfound⟩ : ∃ found, t.get? row.id = some found := by
    rw [← Option.isSome_iff_exists, get?, List.find?_isSome]
    exact ⟨row, h, by simp⟩
  have hnd : (t.rows.map (·.id)).Nodup := by
    rw [t.ok.numbered]
    exact List.nodup_range
  rw [hfound, List.inj_on_of_nodup_map hnd (get?_mem hfound) h (get?_id hfound)]

/-- The next id has no row. -/
theorem get?_length (t : ActionTable) : t.get? t.rows.length = none := by
  refine List.find?_eq_none.mpr fun r hr hid => ?_
  have hmem : r.id ∈ List.range t.rows.length := by
    rw [← t.ok.numbered]
    exact List.mem_map_of_mem hr
  have hlt := List.mem_range.mp hmem
  simp only [beq_iff_eq] at hid
  omega

/-- **What an update does**: the row with its id is replaced, and no other. -/
theorem put_get? {t t' : ActionTable} {row old : ActionRow} (h : t.put row = .ok t')
    (hold : t.get? row.id = some old) (id : Nat) :
    t'.get? id = if id = row.id then some row else t.get? id := by
  have hrows := ofRows_ok h
  have hmem := get?_mem hold
  by_cases hid : id = row.id
  · rw [if_pos hid, hid]
    refine get?_of_mem ?_
    rw [hrows]
    refine List.mem_map.mpr ⟨old, hmem, ?_⟩
    rw [if_pos (get?_id hold)]
  · rw [if_neg hid]
    unfold get?
    rw [hrows]
    clear hrows h hold hmem
    induction t.rows with
    | nil => rfl
    | cons r rows ih =>
      rw [List.map_cons, List.find?_cons, List.find?_cons, ih]
      by_cases hr : r.id = row.id
      · rw [if_pos hr]
        have hne : (row.id == id) = false := by simpa using fun he => hid he.symm
        rw [hr, hne]
      · rw [if_neg hr]

/-- **What an insertion does**: the new row is there under its id, and every other
row is as it was. -/
theorem add_get? {t t' : ActionTable} {row : ActionRow} (h : t.add row = .ok t') (id : Nat) :
    t'.get? id = if id = row.id then some row else t.get? id := by
  have hrows := ofRows_ok h
  by_cases hid : id = row.id
  · rw [if_pos hid, hid]
    refine get?_of_mem ?_
    rw [hrows]
    simp
  · rw [if_neg hid]
    unfold get?
    rw [hrows, List.find?_append]
    have hne : (row.id == id) = false := by simpa using fun he => hid he.symm
    simp [hne]

end ActionTable

/-! ## What a statement may set -/

/-- The columns that `transition` and `note` are asked to set besides the status. -/
structure Values where
  result : Option StoredResult := none
  verdict : Option Verdict := none
  reasonCode : Option String := none
  rule : Option String := none
  changeSysId : Option String := none
  changeNumber : Option String := none
  requestedAt : Option Nat := none
  deriving DecidableEq

/-- `.values(**values)` -/
def ActionRow.with (row : ActionRow) (v : Values) : ActionRow :=
  { row with
    result := v.result.or row.result
    verdict := v.verdict.getD row.verdict
    reasonCode := v.reasonCode.getD row.reasonCode
    rule := v.rule.getD row.rule
    changeSysId := v.changeSysId.getD row.changeSysId
    changeNumber := v.changeNumber.getD row.changeNumber
    requestedAt := v.requestedAt.or row.requestedAt }

/-- The row in its new status. -/
def ActionRow.moved (row : ActionRow) (now : Nat) (toStatus : ActionStatus) (v : Values) :
    ActionRow :=
  { row.with v with
    status := toStatus
    completedAt := if toStatus.isFinal then some now else row.completedAt }

/-- `_row` raises this. -/
def notFound : Exn := actionError "NotFound" "Not found"

/-- An event of the audit log about an action. -/
def actionEvent (actor event : String) (row : ActionRow) (payload : List (String × Json)) :
    AuditEvent where
  actor := actor
  event := event
  payload := .ofPairs ([("action_id", .str (toString row.id)), ("step_id", .str row.stepId)] ++
    payload)
  correlationId := toString row.runId

/-- `wake_run`: a run that is parked waiting for an approval is put back on the queue. -/
def wakeRun (now runId : Nat) (jobs : List JobRow) : List JobRow :=
  jobs.map fun job =>
    if job.runId = runId ∧ job.status = .waiting then
      { job with status := .queued, availableAt := now, attempts := 0, lockedUntil := none }
    else job

/-- The row is written, together with an event. -/
def saveAction (row : ActionRow) (event : AuditEvent) (db : Db) : Except Exn Db := do
  let actions ← db.actions.put row
  pure { db with actions, audit := db.audit ++ [event] }

/-- The database switches that are on. -/
def dbSwitches (db : Db) : List String :=
  (if db.globalSwitch then ["global"] else []) ++ if db.policy.killSwitch then ["tenant"] else []

/-! ## Reads -/

/-- `find` -/
def findAction (runId : Nat) (stepId : String) (db : Db) : Option ActionRow :=
  db.actions.rows.find? fun r => r.runId == runId && r.stepId == stepId

/-- `get` -/
def getAction (id : Nat) (db : Db) : Tx ActionRow :=
  match db.actions.get? id with
  | none => .error notFound
  | some row => .ok (row, db)

/-- `pending` -/
def pendingActions (db : Db) : List ActionRow := db.actions.rows.filter (·.status == .pending)

/-- `recent_executions` -/
def recentExecutions (now rateMinutes : Nat) (db : Db) : Nat :=
  db.actions.rows.countP fun r => r.executionStartedAt.any (now - minutes rateMinutes ≤ ·)

/-- The versions that `sop_author` looks among. -/
def numberedVersions (sopKey contentHash : String) (db : Db) : List SopVersion :=
  db.sopVersions.rows.filter fun v =>
    v.sopKey == sopKey && v.contentHash == contentHash && v.version.isSome

/-- `sop_author`.  The statement has no order, so the database picks one of the rows:
the one at `pick`, counted round. -/
def sopAuthor (sopKey contentHash : String) (pick : Nat) (db : Db) : String :=
  if contentHash = "" then ""
  else
    let found := numberedVersions sopKey contentHash db
    (found[pick % found.length]?).elim "" (·.authorId)

/-- `text.partition(sep)` -/
def partition (sep : Char) (text : String) : String × Bool × String :=
  let head := text.toList.takeWhile (· != sep)
  let rest := text.toList.drop head.length
  (String.ofList head, !rest.isEmpty, String.ofList (rest.drop 1))

/-- `author_email`, before it is stripped and folded. -/
def authorEmail (authorId : String) (db : Db) : String :=
  let (kind, _, identity) := partition ':' authorId
  let (issuer, sep, subject) := partition '|' identity
  if kind ≠ "user" ∨ sep = false then ""
  else ((db.users.find? fun u => u.issuer == issuer && u.subject == subject).map (·.email)).getD ""

/-! ## Writes -/

/-- The values of a new row. -/
structure Decision where
  runId : Nat
  incidentNumber : String
  stepId : String
  sopKey : String
  sopVersion : String
  sopHash : String
  sopAuthorId : String
  capabilityId : String
  parameters : Json
  callDigest : String
  actionHash : String
  tier : RiskTier
  verdict : Verdict
  reasonCode : String
  rule : String
  status : ActionStatus
  changeTemplate : String
  channels : List String
  expiresAt : Option Nat := none
  validUntil : Option Nat := none
  completedAt : Option Nat := none
  deriving DecidableEq

/-- The new row. -/
def Decision.toRow (d : Decision) (id incidentId : Nat) : ActionRow where
  id := id
  runId := d.runId
  incidentId := incidentId
  incidentNumber := d.incidentNumber
  stepId := d.stepId
  sopKey := d.sopKey
  sopVersion := d.sopVersion
  sopHash := d.sopHash
  sopAuthorId := d.sopAuthorId
  capabilityId := d.capabilityId
  parameters := d.parameters
  callDigest := d.callDigest
  actionHash := d.actionHash
  tier := d.tier
  verdict := d.verdict
  reasonCode := d.reasonCode
  rule := d.rule
  status := d.status
  changeTemplate := d.changeTemplate
  channels := d.channels
  expiresAt := d.expiresAt
  validUntil := d.validUntil
  completedAt := d.completedAt

/-- `record_decision`, up to the exception of a row that is already there. -/
def recordDecision (d : Decision) (payload : List (String × Json)) (db : Db) : Tx ActionRow :=
  match db.runs.find? (·.id == d.runId) with
  | none => .error integrityError
  | some run =>
    let row := d.toRow db.actions.rows.length run.incidentId
    let event := actionEvent policyEngine "policy.decided" row payload
    (db.actions.add row).map fun actions =>
      (row, { db with actions, audit := db.audit ++ [event] })

/-- `transition`: the updated row, or `none` when the action was not in one of the
statuses; nothing is written in that case. -/
def transitionAction (now id : Nat) (fromStatuses : List ActionStatus) (toStatus : ActionStatus)
    (event : String) (payload : List (String × Json)) (values : Values) (wake : Bool) (db : Db) :
    Tx (Option ActionRow) :=
  match db.actions.get? id with
  | none => .ok (none, db)
  | some row =>
    if row.status ∉ fromStatuses then .ok (none, db)
    else
      let row := row.moved now toStatus values
      let event := actionEvent policyEngine event row
        ([("capability", .str row.capabilityId), ("action_sha256", .str row.actionHash),
          ("status", .str toStatus.value)] ++ payload)
      (saveAction row event db).map fun db =>
        (some row, if wake then { db with jobs := wakeRun now row.runId db.jobs } else db)

/-- `note`: something about an action that does not change its status. -/
def noteAction (id : Nat) (event : String) (payload : List (String × Json)) (values : Values)
    (db : Db) : Tx ActionRow :=
  match db.actions.get? id with
  | none => .error notFound
  | some row =>
    let row := row.with values
    (saveAction row (actionEvent policyEngine event row payload) db).map fun db => (row, db)

/-- What `authorise_execution` gives when a constraint stops the update. -/
def carriedOut : String := "this action has already been carried out for this incident"

/-- The row as its execution begins. -/
def ActionRow.begun (row : ActionRow) (now : Nat) : ActionRow :=
  { row with status := .executing, executionStartedAt := some now }

/-- `authorise_execution`: the row, or why not. -/
def authoriseExecution (now id : Nat) (localSwitch : Bool) (db : Db) :
    Tx (Except String ActionRow) :=
  let on := dbSwitches db ++ if localSwitch then ["local"] else []
  if !on.isEmpty then .ok (.error ("kill switch is on: " ++ ", ".intercalate on), db)
  else match db.actions.get? id with
  | none => .ok (.error "the action is no longer authorised", db)
  | some row =>
    if (row.status = .approved ∨ row.status = .allowed) ∧ row.validUntil.any (now < ·) then
      let row := row.begun now
      let event := actionEvent policyEngine "action.executing" row
        [("capability", .str row.capabilityId), ("parameters", row.parameters),
          ("action_sha256", .str row.actionHash), ("tier", .str row.tier.value),
          ("authorised_by", .str (if row.approverId.getD "" = "" then "policy"
            else row.approverId.getD "")),
          ("change", .str row.changeNumber)]
      match saveAction row event db with
      | .ok db => .ok (.ok row, db)
      -- IntegrityError
      | .error _ => .ok (.error carriedOut, db)
    else .ok (.error "the action is no longer authorised", db)

/-- What an approver says about an action. -/
structure Answer where
  /-- `who(actor)` -/
  actor : String
  approve : Bool
  seenHash : String
  noteText : String := ""
  via : String := "ui"
  approverEmail : String := ""
  deriving DecidableEq

/-- Why `decide` refuses an answer about this row. -/
def refuses (now : Nat) (row : ActionRow) (a : Answer) : Option Exn :=
  if row.status ≠ .pending then
    some (actionError "WrongState"
      s!"This action is not waiting for approval (it is {row.status.value})")
  else if a.seenHash = "" ∨ a.seenHash ≠ row.actionHash then
    some (actionError "WrongState" "The action is not the one that was shown; look at it again")
  else if row.expiresAt.all (· ≤ now) then none
  else if a.approve = true ∧ row.tier = .t2 then
    if row.sopAuthorId = "" then
      some (actionError "NotAllowed"
        "The author of the SOP is not on record; a T2 action needs one")
    else if row.sopAuthorId = a.actor then
      some (actionError "NotAllowed" "The author of the SOP cannot approve a T2 action from it")
    else none
  else none

/-- The row after an answer that came in time. -/
def ActionRow.answered (row : ActionRow) (now validUntil : Nat) (a : Answer) : ActionRow :=
  { row with
    status := if a.approve then .approved else .rejected
    completedAt := if a.approve then row.completedAt else some now
    approverId := some a.actor
    approverEmail := clipText 320 a.approverEmail
    approvedHash := if a.approve then row.actionHash else ""
    decidedVia := a.via
    decisionNote := clipText 1000 a.noteText
    decidedAt := some now
    validUntil := some validUntil }

/-- The row after an answer that came too late. -/
def ActionRow.expiredAt (row : ActionRow) (now : Nat) : ActionRow :=
  { row with status := .expired, completedAt := some now }

/-- `decide`: the decision, and whether it came too late.  The transaction commits in
both cases. -/
def decideAction (now id : Nat) (a : Answer) (db : Db) : Tx Bool :=
  match db.actions.get? id with
  | none => .error notFound
  | some row =>
    match refuses now row a with
    | some e => .error e
    | none =>
      let expired := row.expiresAt.all (· ≤ now)
      let after := if expired then row.expiredAt now
        else row.answered now (now + minutes db.policy.rules.executeWithinMinutes) a
      let event := actionEvent (if expired then policyEngine else a.actor)
        (if expired then "approval.expired" else "approval.decided") after
        [("capability", .str row.capabilityId), ("action_sha256", .str row.actionHash),
          ("decision", .str after.status.value), ("via", .str a.via),
          ("tier", .str row.tier.value), ("note", .str (clipText 1000 a.noteText))]
      (saveAction after event db).map fun db =>
        (expired, { db with jobs := wakeRun now row.runId db.jobs })

/-! ## What a write changes -/

/-- A transaction about one action: the table is as it was, or `row` has been put
into it. -/
theorem saveAction_ok {row : ActionRow} {event : AuditEvent} {db db' : Db}
    (h : saveAction row event db = .ok db') :
    ∃ actions, db.actions.put row = .ok actions ∧
      db' = { db with actions, audit := db.audit ++ [event] } := by
  unfold saveAction at h
  cases hput : db.actions.put row with
  | error e =>
    rw [hput] at h
    cases h
  | ok actions =>
    rw [hput] at h
    cases h
    exact ⟨actions, rfl, rfl⟩

theorem saveAction_map_ok {α : Type} {row : ActionRow} {event : AuditEvent} {db : Db}
    {f : Db → α × Db} {r : α × Db} (h : (saveAction row event db).map f = .ok r) :
    ∃ actions, db.actions.put row = .ok actions ∧
      r = f { db with actions, audit := db.audit ++ [event] } := by
  cases hsave : saveAction row event db with
  | error e =>
    rw [hsave] at h
    cases h
  | ok db' =>
    rw [hsave] at h
    cases h
    obtain ⟨actions, hput, rfl⟩ := saveAction_ok hsave
    exact ⟨actions, hput, rfl⟩

/-- A compare-and-set: it did not match and nothing was written, or the row was moved. -/
theorem transitionAction_ok {now id : Nat} {fromStatuses : List ActionStatus}
    {toStatus : ActionStatus} {event : String} {payload : List (String × Json)} {values : Values}
    {wake : Bool} {db db' : Db} {moved : Option ActionRow}
    (h : transitionAction now id fromStatuses toStatus event payload values wake db =
      .ok (moved, db')) :
    (moved = none ∧ db' = db ∧ ∀ r, db.actions.get? id = some r → r.status ∉ fromStatuses) ∨
      ∃ r actions audit, db.actions.get? id = some r ∧ r.status ∈ fromStatuses ∧
        db.actions.put (r.moved now toStatus values) = .ok actions ∧
        moved = some (r.moved now toStatus values) ∧
        db' = { db with
          actions, audit, jobs := if wake then wakeRun now r.runId db.jobs else db.jobs } := by
  unfold transitionAction at h
  split at h
  · rename_i hnone
    cases h
    refine .inl ⟨rfl, rfl, fun r hr => ?_⟩
    rw [hnone] at hr
    cases hr
  · rename_i r hr
    split at h
    · rename_i hfrom
      cases h
      refine .inl ⟨rfl, rfl, fun r' hr' => ?_⟩
      rw [hr] at hr'
      cases hr'
      exact hfrom
    · rename_i hfrom
      obtain ⟨actions, hput, hres⟩ := saveAction_map_ok h
      refine .inr ?_
      cases wake with
      | true => exact ⟨r, actions, _, hr, by simpa using hfrom, hput, congrArg Prod.fst hres,
          congrArg Prod.snd hres⟩
      | false => exact ⟨r, actions, _, hr, by simpa using hfrom, hput, congrArg Prod.fst hres,
          congrArg Prod.snd hres⟩

theorem noteAction_ok {id : Nat} {event : String} {payload : List (String × Json)}
    {values : Values} {db db' : Db} {row : ActionRow}
    (h : noteAction id event payload values db = .ok (row, db')) :
    ∃ r actions audit, db.actions.get? id = some r ∧
      db.actions.put (r.with values) = .ok actions ∧ row = r.with values ∧
      db' = { db with actions, audit } := by
  unfold noteAction at h
  split at h
  · cases h
  · rename_i r hr
    obtain ⟨actions, hput, hres⟩ := saveAction_map_ok h
    exact ⟨r, actions, _, hr, hput, congrArg Prod.fst hres, congrArg Prod.snd hres⟩

theorem recordDecision_ok {d : Decision} {payload : List (String × Json)} {db db' : Db}
    {row : ActionRow} (h : recordDecision d payload db = .ok (row, db')) :
    ∃ run actions audit, db.runs.find? (·.id == d.runId) = some run ∧
      row = d.toRow db.actions.rows.length run.incidentId ∧ db.actions.add row = .ok actions ∧
      db' = { db with actions, audit } := by
  unfold recordDecision at h
  split at h
  · cases h
  · rename_i run hrun
    cases hadd : db.actions.add (d.toRow db.actions.rows.length run.incidentId) with
    | error e =>
      simp only [hadd] at h
      cases h
    | ok actions =>
      simp only [hadd] at h
      cases h
      exact ⟨run, actions, _, hrun, rfl, hadd, rfl⟩

/-- A write is authorised at most from `approved` and `allowed`, in time, and with every
switch off. -/
theorem authoriseExecution_ok {now id : Nat} {localSwitch : Bool} {db db' : Db}
    {answer : Except String ActionRow}
    (h : authoriseExecution now id localSwitch db = .ok (answer, db')) :
    (db' = db ∧ ∃ why, answer = .error why) ∨
      ∃ r actions audit, db.actions.get? id = some r ∧
        (r.status = .approved ∨ r.status = .allowed) ∧
        (r.validUntil.any (now < ·) = true ∧ dbSwitches db = [] ∧ localSwitch = false) ∧
        db.actions.put (r.begun now) = .ok actions ∧ answer = .ok (r.begun now) ∧
        db' = { db with actions, audit } := by
  simp only [authoriseExecution] at h
  generalize hon : (dbSwitches db ++ if localSwitch then ["local"] else []) = on at h
  split at h
  · cases h
    exact .inl ⟨rfl, _, rfl⟩
  · rename_i hempty
    have hoff : dbSwitches db = [] ∧ localSwitch = false := by
      obtain rfl : on = [] := by simpa using hempty
      cases localSwitch with
      | false => simpa using hon
      | true => simp at hon
    split at h
    · cases h
      exact .inl ⟨rfl, _, rfl⟩
    · rename_i r hr
      split at h
      · rename_i hstatus
        split at h
        · rename_i db'' hsave
          cases h
          obtain ⟨actions, hput, rfl⟩ := saveAction_ok hsave
          exact .inr ⟨r, actions, _, hr, hstatus.1, ⟨hstatus.2, hoff⟩, hput, rfl, rfl⟩
        · cases h
          exact .inl ⟨rfl, _, rfl⟩
      · cases h
        exact .inl ⟨rfl, _, rfl⟩

theorem refuses_pending {now : Nat} {row : ActionRow} {a : Answer}
    (h : refuses now row a = none) : row.status = .pending := by
  unfold refuses at h
  split at h
  · cases h
  · rename_i hs
    simpa using hs

/-- A decision is recorded on a row that is pending, and wakes the run. -/
theorem decideAction_ok {now id : Nat} {a : Answer} {db db' : Db} {expired : Bool}
    (h : decideAction now id a db = .ok (expired, db')) :
    ∃ r after actions audit, db.actions.get? id = some r ∧ refuses now r a = none ∧
      (after = r.expiredAt now ∨
        (r.expiresAt.all (· ≤ now) = false ∧
          after = r.answered now (now + minutes db.policy.rules.executeWithinMinutes) a)) ∧
      db.actions.put after = .ok actions ∧
      db' = { db with actions, audit, jobs := wakeRun now r.runId db.jobs } := by
  simp only [decideAction] at h
  split at h
  · cases h
  · rename_i r hr
    split at h
    · cases h
    · rename_i hrefuses
      obtain ⟨actions, hput, hres⟩ := saveAction_map_ok h
      refine ⟨r, _, actions, _, hr, hrefuses, ?_, hput, congrArg Prod.snd hres⟩
      cases hexp : r.expiresAt.all (· ≤ now) with
      | true => exact .inl rfl
      | false => exact .inr ⟨rfl, rfl⟩

end L1Agent
