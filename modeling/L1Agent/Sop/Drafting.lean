import L1Agent.Actions.Store
import L1Agent.Library.Past
import L1Agent.Library.Transactions
import L1Agent.Sop.Content

/-! # Drafts of SOPs, statement by statement (`sop/store.py`, `sop/ingest.py`)

Authors create, edit and discard drafts while syncs turn articles into drafts.  Each function of
the store is a transaction of several statements, and those of different transactions interleave
(PostgreSQL, READ COMMITTED); a statement that has to wait for another transaction is not possible
yet.  SQLite lets one transaction run at a time, so its runs are among these.

A statement may fail, a commit's answer may be lost, and the server rolls a transaction back whose
connection is gone.  What a source answers, and the draft that is made of an article, are the
environment's.  The steps of a review are a change of the version's status (`reviewVersion`).

The programs are `serve`, one for each request, and `store` is the system of their statements.  What
an open transaction has written is seen by itself only, until it commits (`committedBy`) or is
rolled back (`rolledBack`).
-/
namespace L1Agent
namespace Drafting
open Interleaving Transactions

/-- Where an ingested draft came from. -/
structure Source where
  sourceId : String
  article : String
  revision : String
  deriving DecidableEq, Repr

/-- What a sync uses of an article. -/
structure Article where
  id : String
  revision : String
  deriving DecidableEq, Repr

/-- The arguments of `create_draft`. -/
structure Draft where
  actor : String
  content : Json
  origin : String := "authored"
  source : Option Source := none
  sourceText : String := ""
  deriving DecidableEq

/-- A row of `sops`. -/
structure SopRow where
  id : Nat
  sopKey : String
  title : String
  deriving DecidableEq, Repr

/-- A row of `sop_versions`. -/
structure VersionRow where
  id : Nat
  sopId : Nat
  status : SopStatus
  content : Json
  origin : String
  sourceId : String
  sourceArticle : String
  sourceRevision : String
  sourceText : String
  authorId : String
  deriving DecidableEq

def VersionRow.source (v : VersionRow) : Source := ⟨v.sourceId, v.sourceArticle, v.sourceRevision⟩

/-- The rows that `uq_sop_versions_source` sets apart from this one. -/
def VersionRow.conflicts (row v : VersionRow) : Bool := row.sourceId != "" && v.source == row.source

/-- `SyncResult` -/
structure SyncResult where
  sourceId : String
  articles : Nat := 0
  drafts : Nat := 0
  skipped : Nat := 0
  modelDrafted : Nat := 0
  errors : List String := []
  deriving DecidableEq, Repr

inductive Exn where
  /-- `IntegrityError` -/
  | integrity
  /-- `SopError` and its subclasses. -/
  | sop (name message : String)
  | other (name : String)
  deriving DecidableEq, Repr

/-- `type(exc).__name__` -/
def Exn.name : Exn → String
  | integrity => "IntegrityError"
  | sop name _ => name
  | other name => name

/-- A call from outside, or of `create_draft`. -/
inductive Request where
  | create (draft : Draft)
  | update (actor : String) (versionId : Nat) (content : Json)
  | discard (actor : String) (versionId : Nat)
  | review (actor : String) (versionId : Nat) (status : SopStatus)
  | sync (sourceId actor : String)
  /-- The server ends the transaction of a thread. -/
  | abort (thread : Nat)
  deriving DecidableEq

inductive Statement where
  | uuid4
  | sopOf (sopKey : String)
  | insertSop (row : SopRow)
  | seen (source : Source)
  | insertVersion (row : VersionRow)
  /-- `_version`, which locks the row. -/
  | lockVersion (versionId : Nat)
  | updateVersion (versionId : Nat) (content : Json) (authorId : String)
  | setStatus (versionId : Nat) (status : SopStatus)
  | deleteVersion (versionId : Nat)
  /-- `audit.append`, which locks the log. -/
  | append (event : AuditEvent)
  | commit
  | rollback
  /-- `create_draft` returns. -/
  | returned (versionId : Option Nat)
  /-- The transaction of `_cursor`. -/
  | cursor (sourceId : String)
  | changedSince (cursor : String)
  | draftFrom (article : Article)
  /-- The transaction of `_record`. -/
  | record (actor : String) (result : SyncResult) (cursor : Option String)
  | abort (thread : Nat)
  deriving DecidableEq

/-- A statement that is carried out for a request. -/
structure Op where
  request : Request
  statement : Statement
  deriving DecidableEq

def Statement.Val : Statement → Type
  | uuid4 => Nat
  | sopOf _ => Option Nat
  | seen _ => Bool
  | lockVersion _ => Option (VersionRow × String)
  | cursor _ => String
  | changedSince _ => List Article × String
  | draftFrom _ => Json × String × String
  | insertSop _ | insertVersion _ | updateVersion .. | setStatus .. | deleteVersion _ | append _
  | commit | rollback | returned _ | record .. | abort _ => Unit

def Statements : Signature := ⟨Op, fun o => Except Exn o.statement.Val⟩

abbrev Prog (α : Type) := Program Statements Exn α

def execute (request : Request) (statement : Statement) : Prog statement.Val :=
  (Program.op (E := Statements) ⟨request, statement⟩).bind Program.ofExcept

/-- What the libraries compute. -/
structure Tools where
  builtins : Builtins
  contentHash : Json → String

/-! ## The store -/

/-- `async with db.tenant(tenant_id) as conn` -/
def transaction {α : Type} (request : Request) (body : Prog α) : Prog α := do
  let result ← body.attempt
  match result with
  | .ok value => do
    execute request .commit
    pure value
  | .error e => do
    execute request .rollback
    throw e

/-- An event of the audit log about a draft. -/
def draftEvent (actor event sopKey : String) (versionId : Nat) (payload : List (String × Json)) :
    AuditEvent where
  actor := actor
  event := event
  payload := .ofPairs ([("sop_id", .str sopKey), ("version_id", .str (toString versionId))] ++
    payload)
  correlationId := "sop:" ++ sopKey

section
variable (tools : Tools)

/-- `normalise`, with the SOP's key.  One that is no text is none that a query takes. -/
def normalised (content : Json) : Prog (String × Json) :=
  match Raw.normalise tools.builtins content with
  | .error message => throw (.sop "SopError" message)
  | .ok data => match data.getD "sop_id" .null with
    | .str sopKey => pure (sopKey, data)
    | _ => throw (.other "DBAPIError")

/-- The new row of `create_draft`. -/
def Draft.row (d : Draft) (versionId sopId : Nat) (data : Json) : VersionRow where
  id := versionId
  sopId := sopId
  status := .draft
  content := data
  origin := d.origin
  sourceId := d.source.elim "" (·.sourceId)
  sourceArticle := d.source.elim "" fun source => clipText 500 source.article
  sourceRevision := d.source.elim "" fun source => clipText 200 source.revision
  sourceText := clipText 200000 d.sourceText
  authorId := d.actor

def Draft.event (d : Draft) (versionId : Nat) (sopKey : String) (data : Json) : AuditEvent :=
  draftEvent d.actor "sop.draft_created" sopKey versionId
    [("origin", .str d.origin), ("content_sha256", .str (tools.contentHash data)),
      ("source", .arr (d.source.elim [] fun source =>
        [.str source.sourceId, .str source.article, .str source.revision]))]

/-- The SOP of a draft, which is new if there is none with its key. -/
def sopFor (d : Draft) (sopKey : String) (data : Json) : Prog Nat := do
  let found ← execute (.create d) (.sopOf sopKey)
  match found with
  | some sopId => pure sopId
  | none => do
    let sopId ← execute (.create d) .uuid4
    execute (.create d) (.insertSop ⟨sopId, sopKey,
      clipText 300 (tools.builtins.str (data.getD "title" (.str "")))⟩)
    pure sopId

def insertDraft (d : Draft) (versionId sopId : Nat) (sopKey : String) (data : Json) :
    Prog (Option Nat) := do
  execute (.create d) (.insertVersion (d.row versionId sopId data))
  execute (.create d) (.append (d.event tools versionId sopKey data))
  pure (some versionId)

/-- The transaction of `create_draft`. -/
def draftBody (d : Draft) (versionId : Nat) (sopKey : String) (data : Json) :
    Prog (Option Nat) := do
  let sopId ← sopFor tools d sopKey data
  match d.source with
  | none => insertDraft tools d versionId sopId sopKey data
  | some source => do
    let seen : Bool ← execute (.create d) (.seen source)
    if seen then pure none else insertDraft tools d versionId sopId sopKey data

/-- `create_draft`: `none` when this source revision was already ingested. -/
def createDraft (d : Draft) : Prog (Option Nat) := do
  let (sopKey, data) ← normalised tools d.content
  let versionId ← execute (.create d) .uuid4
  let created ← (transaction (.create d) (draftBody tools d versionId sopKey data)).tryCatch
    fun e => if e = .integrity ∧ d.source.isSome then pure none else throw e
  execute (.create d) (.returned created)
  pure created

/-- `if not p: raise e` -/
def require (p : Prop) [Decidable p] (e : Exn) : Prog Unit := if p then pure () else throw e

/-- `_version` -/
def getVersion (request : Request) (versionId : Nat) : Prog (VersionRow × String) := do
  let found ← execute request (.lockVersion versionId)
  match found with
  | some row => pure row
  | none => throw (.sop "NotFound" "No such SOP version")

/-- `update_draft` -/
def updateDraft (actor : String) (versionId : Nat) (content : Json) : Prog Unit := do
  let request := Request.update actor versionId content
  let (sopKey, data) ← normalised tools content
  transaction request do
    let (row, rowKey) ← getVersion request versionId
    require (row.status = .draft) (.sop "WrongState" "Only a draft can be edited")
    require (sopKey = rowKey)
      (.sop "SopError" "sop_id cannot be changed; create a new SOP instead")
    require (row.authorId = actor ∨ row.authorId.startsWith "system:")
      (.sop "NotAllowed" "Only the author can edit this draft")
    execute request (.updateVersion versionId data actor)
    execute request (.append (draftEvent actor "sop.draft_updated" rowKey versionId
      [("content_sha256", .str (tools.contentHash data)), ("previous_author", .str row.authorId)]))

/-- `discard` -/
def discardDraft (actor : String) (versionId : Nat) : Prog Unit := do
  let request := Request.discard actor versionId
  transaction request do
    let (row, sopKey) ← getVersion request versionId
    require (row.status = .draft) (.sop "WrongState" "Only a draft can be discarded")
    execute request (.deleteVersion versionId)
    execute request (.append (draftEvent actor "sop.draft_discarded" sopKey versionId
      [("author", .str row.authorId)]))

/-- A step of a version's review, as far as a draft may notice it. -/
def reviewVersion (actor : String) (versionId : Nat) (status : SopStatus) : Prog Unit := do
  let request := Request.review actor versionId status
  transaction request do
    let _ ← getVersion request versionId
    execute request (.setStatus versionId status)

/-! ## The sync of a source -/

/-- An article of a sync. -/
def syncArticle (sourceId actor : String) (result : SyncResult) (article : Article) :
    Prog SyncResult := do
  let (content, origin, text) ← execute (.sync sourceId actor) (.draftFrom article)
  let created ← (createDraft tools
    { actor := "system:ingest", content, origin,
      source := some ⟨sourceId, article.id, article.revision⟩, sourceText := text }).attempt
  match created with
  | .error (.sop _ message) =>
    pure { result with errors := result.errors ++ [article.id ++ ": " ++ message] }
  | .error e => throw e
  | .ok none => pure { result with skipped := result.skipped + 1 }
  | .ok (some _) =>
    pure { result with
      drafts := result.drafts + 1
      modelDrafted := result.modelDrafted + if origin = "model_drafted" then 1 else 0 }

/-- The articles of a sync, in turn. -/
def syncArticles (sourceId actor : String) : SyncResult → List Article → Prog SyncResult
  | result, [] => pure result
  | result, article :: articles => do
    let result ← syncArticle tools sourceId actor result article
    syncArticles sourceId actor result articles

/-- `sync_source` -/
def syncSource (sourceId actor : String) : Prog Unit := do
  let request := Request.sync sourceId actor
  let read ← (do
    let cursor ← execute request (.cursor sourceId)
    execute request (.changedSince cursor) : Prog (List Article × String)).attempt
  match read with
  | .error e => execute request (.record actor
      { sourceId, errors := ["could not read the source: " ++ e.name] } none)
  | .ok (articles, cursor) => do
    let result ← syncArticles tools sourceId actor { sourceId, articles := articles.length } articles
    execute request (.record actor result (some cursor))

def serve : Request → Prog Unit
  | .create d => (createDraft tools d).bind fun _ => pure ()
  | .update actor versionId content => updateDraft tools actor versionId content
  | .discard actor versionId => discardDraft actor versionId
  | .review actor versionId status => reviewVersion actor versionId status
  | .sync sourceId actor => syncSource tools sourceId actor
  | .abort thread => execute (.abort thread) (.abort thread)

end

/-! ## The database -/

/-- A row of `knowledge_sources`. -/
structure SourceRow where
  sourceId : String
  cursor : String := ""
  lastError : String := ""
  deriving DecidableEq, Repr

/-- The tables of a tenant.  The ids are minted in turn. -/
structure Store where
  sops : List (Slot SopRow) := []
  versions : List (Slot VersionRow) := []
  audit : List (Slot AuditEvent) := []
  sources : List SourceRow := []
  fresh : Nat := 0
  /-- The threads whose transaction the server has ended. -/
  gone : List Nat := []
  deriving DecidableEq

/-- What the environment settles. -/
structure Choice where
  /-- The statement fails. -/
  fails : Bool := false
  /-- The commit is carried out, and its answer lost. -/
  lost : Bool := false
  /-- What the source answers, or the name of the exception. -/
  read : Except String (List Article × String) := .ok ([], "")
  draft : Except String (Json × String × String) := .ok (.null, "ingested", "")

namespace Store

def rolledBack (t : Nat) (s : Store) : Store :=
  { s with
    sops := rollback t s.sops, versions := rollback t s.versions, audit := rollback t s.audit
    gone := s.gone.filter (· ≠ t) }

def committedBy (t : Nat) (s : Store) : Store :=
  { s with
    sops := commit t s.sops, versions := commit t s.versions, audit := commit t s.audit }

/-- A row that is inserted, or refused by a unique index, or has to wait. -/
def inserted {α : Type} (t : Nat) (s after : Store) (found : Room) (value : α) :
    Option (Except Exn α × Store) :=
  match found with
  | .free => some (.ok value, after)
  | .taken => some (.error .integrity, s.rolledBack t)
  | .open => none

/-- The row is of the version. -/
def version (versionId : Nat) (v : VersionRow) : Bool := v.id == versionId

/-- The version that the thread sees, with its key. -/
def joined (t versionId : Nat) (s : Store) : Option (VersionRow × String) := do
  let v ← (Transactions.seenBy t s.versions).find? (version versionId)
  let sop ← (Transactions.seenBy t s.sops).find? (·.id == v.sopId)
  return (v, sop.sopKey)

def written (t versionId : Nat) (f : VersionRow → Option VersionRow) (s : Store) : Store :=
  { s with versions := Transactions.write t (version versionId) f s.versions }

/-- A statement of a transaction. -/
def within (t : Nat) (s : Store) : (st : Statement) → Option (Except Exn st.Val × Store)
  | .sopOf sopKey =>
    some (.ok (((Transactions.seenBy t s.sops).find? (·.sopKey == sopKey)).map (·.id)), s)
  | .insertSop row =>
    s.inserted t { s with sops := insert t row s.sops }
      (room t (fun r => r.sopKey == row.sopKey) s.sops) ()
  | .seen source => some (.ok ((Transactions.seenBy t s.versions).any (·.source == source)), s)
  | .insertVersion row =>
    s.inserted t { s with versions := insert t row s.versions }
      (room t row.conflicts s.versions) ()
  | .lockVersion versionId =>
    if held t (version versionId) s.versions then none
    else some (.ok (s.joined t versionId), s.written t versionId some)
  | .updateVersion versionId content authorId =>
    some (.ok (), s.written t versionId fun v => some { v with content, authorId })
  | .setStatus versionId status =>
    some (.ok (), s.written t versionId fun v => some { v with status })
  | .deleteVersion versionId => some (.ok (), s.written t versionId fun _ => none)
  | .append event =>
    if s.audit.any fun e => e.owner.any (· != t) then none
    else some (.ok (), { s with audit := insert t event s.audit })
  | _ => none

/-- `_record`, without its event. -/
def recorded (result : SyncResult) (cursor : Option String) (sources : List SourceRow) :
    List SourceRow :=
  let lastError := clipText 2000 ("; ".intercalate result.errors)
  let known := if sources.any (·.sourceId == result.sourceId) then sources
    else sources ++ [{ sourceId := result.sourceId }]
  known.map fun row => if row.sourceId = result.sourceId then
    { row with cursor := cursor.elim row.cursor (clipText 200), lastError } else row

/-- `SyncResult.to_dict` -/
def syncEvent (actor : String) (result : SyncResult) : AuditEvent where
  actor := actor
  event := "knowledge.synced"
  payload := .ofPairs [("source", .str result.sourceId), ("articles", .int result.articles),
    ("drafts", .int result.drafts), ("model_drafted", .int result.modelDrafted),
    ("skipped", .int result.skipped), ("errors", .arr ((result.errors.take 20).map .str))]

/-- What a statement of thread `t` answers and leaves. -/
def run (t : Nat) (st : Statement) (ch : Choice) (s : Store) :
    Option (Except Exn st.Val × Store) :=
  match st with
  | .uuid4 => some (.ok s.fresh, { s with fresh := s.fresh + 1 })
  | .returned _ => some (.ok (), s)
  | .changedSince _ => some (ch.read.mapError .other, s)
  | .draftFrom _ => some (ch.draft.mapError .other, s)
  | .rollback => some (.ok (), s.rolledBack t)
  | .abort thread => some (.ok (), { s.rolledBack thread with gone := thread :: s.gone })
  | .cursor sourceId =>
    if ch.fails then some (.error (.other "DBAPIError"), s)
    else some (.ok (((s.sources.find? (·.sourceId == sourceId)).map (·.cursor)).getD ""), s)
  | .record actor result cursor =>
    if ch.fails then some (.error (.other "DBAPIError"), s)
    else if s.audit.any fun e => e.owner.isSome then none
    else some (if ch.lost then .error (.other "DBAPIError") else .ok (),
      { s with
        sources := recorded result cursor s.sources
        audit := s.audit ++ [{ row := syncEvent actor result }] })
  | .commit =>
    if ch.fails ∨ t ∈ s.gone then some (.error (.other "DBAPIError"), s.rolledBack t)
    else some (if ch.lost then .error (.other "DBAPIError") else .ok (), s.committedBy t)
  | st =>
    if ch.fails ∨ t ∈ s.gone then some (.error (.other "DBAPIError"), s.rolledBack t)
    else s.within t st

end Store

/-- A tenant's store that is sent any requests. -/
def store (tools : Tools) : System Statements Exn Store where
  Choice := Choice
  run t o ch s := s.run t o.statement ch
  Entry p := ∃ request, p = serve tools request

end Drafting
end L1Agent
