import L1Agent.Actions.Store
import L1Agent.Sop.Validator

/-! # SOP versions and their lifecycle (`sop/store.py`)

A version is a draft, is reviewed, approved, published under the next number, and
superseded or retired.  Each function is one transaction.  What an article it was
ingested from adds to a version, and the source's own text, are left out.

The checks of a transaction come before its writes, in the source's order, with the source's texts
(`require`).  A transaction of this module writes the versions and the log, and nothing else
(`OnlySops`).
-/
namespace L1Agent

/-- An event of the audit log about a version. -/
def sopEvent (actor event : String) (v : SopVersion) (payload : List (String × Json)) :
    AuditEvent where
  actor := actor
  event := event
  payload := .ofPairs ([("sop_id", .str v.sopKey), ("version_id", .str (toString v.id))] ++ payload)
  correlationId := "sop:" ++ v.sopKey

/-- The event of a retirement, which names the SOP and the number of its version. -/
def retiredEvent (actor : String) (v : SopVersion) : AuditEvent where
  actor := actor
  event := "sop.retired"
  payload := .ofPairs [("sop_id", .str v.sopKey),
    ("version", v.version.elim .null fun n => .int n), ("content_sha256", .str v.contentHash)]
  correlationId := "sop:" ++ v.sopKey

/-- `if not p: raise e` -/
def require (p : Prop) [Decidable p] (e : Exn) : Except Exn Unit :=
  if p then .ok () else .error e

theorem require_ok {p : Prop} [Decidable p] {e : Exn} {u : Unit} (h : require p e = .ok u) : p := by
  unfold require at h
  split at h
  · assumption
  · cases h

/-- `_version` -/
def getVersion (id : Nat) (db : Db) : Except Exn SopVersion :=
  match db.sopVersions.rows.find? (·.id == id) with
  | none => .error (actionError "NotFound" "No such SOP version")
  | some v => .ok v

/-- The versions with these rows, and an event. -/
def saveVersions (rows : List SopVersion) (event : AuditEvent) (db : Db) : Except Exn Db :=
  (SopTable.ofRows rows).map fun sopVersions =>
    { db with sopVersions, audit := db.audit ++ [event] }

/-- UPDATE of the version with this id. -/
def putVersion (v : SopVersion) (rows : List SopVersion) : List SopVersion :=
  rows.map fun r => if r.id = v.id then v else r

/-- `as_sop` -/
def asSop (content : SopContent) (version : Option Nat) (digest : String) : SOP :=
  { content.sop with
    status := "published", version := (version.filter (· ≠ 0)).elim "" toString
    contentHash := digest }

/-- `text.startswith("system:")` -/
def isSystem (actor : String) : Bool := "system:".toList.isPrefixOf actor.toList

section
variable (catalog : Catalog) (contentHash : SopContent → String)

/-- `create_draft`, for a draft that no article is the source of. -/
def createDraft (actor : String) (id : Nat) (content : SopContent) (db : Db) : Tx Nat :=
  let v : SopVersion :=
    { id, sopKey := content.sop.sopId, content, authorId := actor }
  (saveVersions (db.sopVersions.rows ++ [v])
    (sopEvent actor "sop.draft_created" v
      [("origin", .str v.origin), ("content_sha256", .str (contentHash content)),
        ("source", .arr [])]) db).map
    fun db => (v.id, db)

/-- `update_draft`: a draft written by a system is adopted by its first editor. -/
def updateDraft (actor : String) (id : Nat) (content : SopContent) (db : Db) :
    Except Exn (Unit × Db) := do
  let v ← getVersion id db
  require (v.status = .draft) (actionError "WrongState" "Only a draft can be edited")
  require (content.sop.sopId = v.sopKey)
    (actionError "SopError" "sop_id cannot be changed; create a new SOP instead")
  require (v.authorId = actor ∨ isSystem v.authorId = true)
    (actionError "NotAllowed" "Only the author can edit this draft")
  let db ← saveVersions (putVersion { v with content, authorId := actor } db.sopVersions.rows)
    (sopEvent actor "sop.draft_updated" v
      [("content_sha256", .str (contentHash content)), ("previous_author", .str v.authorId)]) db
  pure ((), db)

/-- `discard` -/
def discardDraft (actor : String) (id : Nat) (db : Db) : Except Exn (Unit × Db) := do
  let v ← getVersion id db
  require (v.status = .draft) (actionError "WrongState" "Only a draft can be discarded")
  let db ← saveVersions (db.sopVersions.rows.filter (·.id ≠ id))
    (sopEvent actor "sop.draft_discarded" v [("author", .str v.authorId)]) db
  pure ((), db)

/-- `problems_of` -/
def problemsOf (content : SopContent) : List String := validateSop catalog (asSop content none "")

/-- `submit`: the hash the reviewer will approve. -/
def submitDraft (actor : String) (id : Nat) (db : Db) : Except Exn (String × Db) := do
  let v ← getVersion id db
  require (v.status = .draft) (actionError "WrongState" "Only a draft can be submitted")
  require (v.authorId = actor ∨ isSystem v.authorId = true)
    (actionError "NotAllowed" "Only the author can submit this draft")
  require (problemsOf catalog v.content = [])
    (actionError "SopError" "The SOP is not valid and cannot be reviewed")
  let digest := contentHash v.content
  let after := { v with
    status := .inReview, contentHash := digest, authorId := actor, reviewNote := "" }
  let db ← saveVersions (putVersion after db.sopVersions.rows)
    (sopEvent actor "sop.submitted" after
      [("content_sha256", .str digest), ("origin", .str v.origin),
        ("previous_author", .str v.authorId)]) db
  pure (digest, db)

/-- `approve`: exactly the content with `reviewedHash`. -/
def approveVersion (actor : String) (id : Nat) (reviewedHash : String) (db : Db) :
    Except Exn (Unit × Db) := do
  let v ← getVersion id db
  require (v.status = .inReview)
    (actionError "WrongState" "Only a version in review can be approved")
  require (v.authorId ≠ actor)
    (actionError "NotAllowed" "The author of a version cannot approve it")
  require (reviewedHash ≠ "" ∧ reviewedHash = v.contentHash)
    (actionError "WrongState" "The version changed since it was reviewed; review it again")
  let after := { v with status := .approved, approverId := some actor }
  let db ← saveVersions (putVersion after db.sopVersions.rows)
    (sopEvent actor "sop.approved" after
      [("content_sha256", .str v.contentHash), ("author", .str v.authorId),
        ("origin", .str v.origin)]) db
  pure ((), db)

/-- `request_changes` -/
def requestChanges (actor : String) (id : Nat) (note : String) (db : Db) :
    Except Exn (Unit × Db) := do
  let v ← getVersion id db
  require (v.status = .inReview)
    (actionError "WrongState" "Only a version in review can be sent back")
  let after := { v with status := .draft, reviewNote := clipText 2000 note }
  let db ← saveVersions (putVersion after db.sopVersions.rows)
    (sopEvent actor "sop.changes_requested" after [("note", .str after.reviewNote)]) db
  pure ((), db)

/-- The next version number of an SOP. -/
def nextNumber (sopKey : String) (rows : List SopVersion) : Nat :=
  ((rows.filter (·.sopKey == sopKey)).filterMap (·.version)).foldr max 0 + 1

/-- The published version gives way. -/
def superseded (sopKey : String) (rows : List SopVersion) : List SopVersion :=
  rows.map fun r =>
    if r.sopKey = sopKey ∧ r.status = .published then { r with status := .superseded } else r

/-- `publish`: an approved version becomes the one the engine runs. -/
def publishVersion (actor : String) (id : Nat) (db : Db) : Except Exn (Nat × Db) := do
  let v ← getVersion id db
  require (v.status = .approved)
    (actionError "WrongState" "Only an approved version can be published")
  require (problemsOf catalog v.content = [])
    (actionError "SopError" "The SOP is no longer valid and cannot be published")
  let number := nextNumber v.sopKey db.sopVersions.rows
  let after := { v with status := .published, version := some number }
  let db ← saveVersions (putVersion after (superseded v.sopKey db.sopVersions.rows))
    (sopEvent actor "sop.published" after
      [("version", .int number), ("content_sha256", .str v.contentHash),
        ("author", .str v.authorId), ("approver", .str (v.approverId.getD "")),
        ("origin", .str v.origin)]) db
  pure (number, db)

end

/-- `retire`: the published version is withdrawn. -/
def retireSop (actor sopKey : String) (db : Db) : Tx Unit :=
  match db.sopVersions.rows.find? fun v => v.sopKey == sopKey && v.status == .published with
  | none => .error (actionError "NotFound" "This SOP has no published version")
  | some v =>
    (saveVersions (putVersion { v with status := .retired } db.sopVersions.rows)
      (retiredEvent actor v) db).map fun db => ((), db)

/-! ## Reads -/

/-- `published`: what the engine may match. -/
def publishedSops (db : Db) : List SOP :=
  (db.sopVersions.rows.filter (·.status == .published)).map fun v =>
    asSop v.content v.version v.contentHash

/-- `version_for_resume`: the exact version an interrupted run started with, unless it
was withdrawn. -/
def versionForResume (sopKey version digest : String) (db : Db) : Option SOP :=
  if digest = "" then none
  else (db.sopVersions.rows.find? fun v =>
    v.sopKey == sopKey && v.version.elim false (fun n => toString n == version) &&
      v.contentHash == digest && (v.status == .published || v.status == .superseded)).map fun v =>
        asSop v.content v.version digest

/-! ## What the store changes -/

/-- A transaction that changes the versions and the audit log only. -/
def OnlySops {α : Type} (db : Db) (x : Except Exn (α × Db)) : Prop :=
  ∀ v db', x = .ok (v, db') → ∃ sopVersions audit, db' = { db with sopVersions, audit }

section
variable {α β : Type} {db : Db}

theorem OnlySops.bind {x : Except Exn β} {f : β → Except Exn (α × Db)}
    (h : ∀ b, x = .ok b → OnlySops db (f b)) :
    OnlySops db (x >>= f) := by
  intro v db' hrun
  cases x with
  | error e => cases hrun
  | ok b => exact h b rfl v db' hrun

theorem onlySops_save {rows : List SopVersion} {event : AuditEvent} {db' : Db}
    (h : saveVersions rows event db = .ok db') :
    ∃ sopVersions audit, db' = { db with sopVersions, audit } := by
  unfold saveVersions at h
  cases hrows : SopTable.ofRows rows with
  | error e =>
    rw [hrows] at h
    cases h
  | ok t =>
    rw [hrows] at h
    cases h
    exact ⟨_, _, rfl⟩

theorem OnlySops.save {rows : List SopVersion} {event : AuditEvent} {a : α} :
    OnlySops db (saveVersions rows event db >>= fun db => pure (a, db)) := by
  refine OnlySops.bind fun db' hsave v db'' hret => ?_
  cases hret
  exact onlySops_save hsave

theorem OnlySops.save_map {rows : List SopVersion} {event : AuditEvent} {a : α} :
    OnlySops db ((saveVersions rows event db).map fun db => (a, db)) := by
  intro v db' h
  cases hsave : saveVersions rows event db with
  | error e =>
    rw [hsave] at h
    cases h
  | ok db'' =>
    rw [hsave] at h
    cases h
    exact onlySops_save hsave

theorem createDraft_only (contentHash : SopContent → String) (actor : String) (id : Nat)
    (content : SopContent) : OnlySops db (createDraft contentHash actor id content db) := .save_map

theorem updateDraft_only (contentHash : SopContent → String) (actor : String) (id : Nat)
    (content : SopContent) : OnlySops db (updateDraft contentHash actor id content db) :=
  .bind fun _ _ => .bind fun _ _ => .bind fun _ _ => .bind fun _ _ => .save

theorem discardDraft_only (actor : String) (id : Nat) :
    OnlySops db (discardDraft actor id db) := .bind fun _ _ => .bind fun _ _ => .save

theorem submitDraft_only (catalog : Catalog) (contentHash : SopContent → String) (actor : String)
    (id : Nat) : OnlySops db (submitDraft catalog contentHash actor id db) :=
  .bind fun _ _ => .bind fun _ _ => .bind fun _ _ => .bind fun _ _ => .save

theorem approveVersion_only (actor : String) (id : Nat) (reviewedHash : String) :
    OnlySops db (approveVersion actor id reviewedHash db) :=
  .bind fun _ _ => .bind fun _ _ => .bind fun _ _ => .bind fun _ _ => .save

theorem requestChanges_only (actor : String) (id : Nat) (note : String) :
    OnlySops db (requestChanges actor id note db) := .bind fun _ _ => .bind fun _ _ => .save

theorem publishVersion_only (catalog : Catalog) (actor : String) (id : Nat) :
    OnlySops db (publishVersion catalog actor id db) :=
  .bind fun _ _ => .bind fun _ _ => .bind fun _ _ => .save

theorem retireSop_only (actor sopKey : String) : OnlySops db (retireSop actor sopKey db) := by
  unfold retireSop
  split
  · intro v db' h
    cases h
  · exact .save_map

end

end L1Agent
