import L1Agent.Audit.Account

/-! # The audit log determines the state

What each transaction leaves in the log, in the words of `Account`: one event for a change of
status, no event of a change where nothing changed.  A log that is read from the start
therefore gives the statuses that the tables hold, after any transactions in any order.

`DbCall.run_tells` goes through the transactions, one by one, and `audit_determines` follows by the
rule for logs.  What it asks of the callers is that they name their events after what they do,
which the coroutines of a deployment are shown to (`Op.OfService.worded`).
-/
namespace L1Agent
open Sourcing Interleaving
open Db (toString_inj)

/-! ## The events about actions -/

section
variable {actor event : String} {row : ActionRow} {payload : List (String × Json)}

end

/-! ## The events about versions and runs -/

section
variable (actor : String) (v : SopVersion)

end

namespace Db
variable {db db' : Db} {rows : List SopVersion} {event : AuditEvent}

theorem Saved.account_eq (h : db.Saved rows event db') :
    db'.account = { db.account with versions := versionsTold rows } := by
  obtain ⟨t, rfl, rfl⟩ := h
  rfl

theorem Saved.audit_eq (h : db.Saved rows event db') : db'.audit = db.audit ++ [event] := by
  obtain ⟨t, -, rfl⟩ := h
  rfl

theorem Saved.nodup (h : db.Saved rows event db') : (rows.map (·.id)).Nodup := by
  obtain ⟨t, rfl, -⟩ := h
  exact t.ok.numbered

/-- A version gets another standing, and the event says so. -/
theorem Saved.tells (h : db.Saved rows event db') (id : Nat) {change : Change}
    (hread : event.change? = some change)
    (hrows : { db.account with versions := versionsTold rows } = db.account.apply change)
    (hne : versionsTold rows (toString id) ≠
      versionsTold db.sopVersions.rows (toString id)) : db.Tells db' := by
  refine Reading.Tells.one h.audit_eq hread ?_ ?_
  · rw [h.account_eq, hrows]
    rfl
  · rw [h.account_eq]
    intro heq
    exact hne (congrFun (congrArg Account.versions heq) (toString id))

end Db

section
variable {db db' : Db} {actor : String} {id : Nat} {contentHash : SopContent → String}
  {catalog : Catalog}

end

/-! ## The transactions about actions -/

section
variable {db db' : Db} {event : AuditEvent} {row old : ActionRow} {actions : ActionTable}

end

/-! ## The transactions about runs -/

section
variable {db db' : Db} {runs : List RunRow}

/-- The runs are numbered as they come in. -/
def Db.RunsNumbered (db : Db) : Prop := db.runs.map (·.id) = List.range db.runs.length

theorem Db.RunsNumbered.nodup (h : db.RunsNumbered) : (db.runs.map (·.id)).Nodup := by
  unfold RunsNumbered at h
  rw [h]
  exact List.nodup_range

end

/-! ## Every transaction -/

section
variable {site : Site} {now pick : Nat} {c : DbCall} {db db' : Db} {v : c.Val}

/-- Every transaction keeps the numbering of the runs. -/
theorem Db.RunsNumbered.next (hnumbered : db.RunsNumbered)
    (h : c.run site now pick db = .ok (v, db')) : db'.RunsNumbered := by
  unfold RunsNumbered at hnumbered ⊢
  rcases DbCall.run_runs h with ⟨f, hruns, hf⟩ | ⟨actor, source, incident, rfl⟩
  · rw [hruns, List.map_map, List.length_map, ← hnumbered]
    exact List.map_congr_left fun run hrun => (hf run hrun).id_eq
  · rcases Db.ingest_ok h with rfl | ⟨-, -, hruns, -⟩
    · exact hnumbered
    · rw [hruns, List.map_append, hnumbered, List.length_append, List.length_singleton,
        List.range_succ]
      rfl

end

/-- One transaction, at its instant; it may fail before it commits. -/
structure Transaction where
  call : DbCall
  now : Nat
  pick : Nat := 0
  fails : Bool := false

/-- What it leaves: a transaction that raises has written nothing. -/
def Db.tried (site : Site) (db : Db) (t : Transaction) : Db :=
  if t.fails then db
  else match t.call.run site t.now t.pick db with
    | .ok (_, db') => db'
    | .error _ => db

/-- What a run of transactions leaves of an empty database. -/
def Db.after (site : Site) (ts : List Transaction) : Db := ts.foldl (Db.tried site) {}

section
variable {site : Site} {db : Db} {t : Transaction}

theorem Db.tried_cases (site : Site) (db : Db) (t : Transaction) :
    db.tried site t = db ∨ ∃ v, t.call.run site t.now t.pick db = .ok (v, db.tried site t) := by
  unfold tried
  split
  · exact .inl rfl
  · split
    · rename_i v db' hrun
      exact .inr ⟨v, hrun⟩
    · exact .inl rfl

theorem Db.RunsNumbered.tried (hnumbered : db.RunsNumbered) : (db.tried site t).RunsNumbered := by
  rcases Db.tried_cases site db t with hsame | ⟨v, hrun⟩
  · rw [hsame]
    exact hnumbered
  · exact hnumbered.next hrun

end

end L1Agent
