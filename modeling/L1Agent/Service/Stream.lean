import L1Agent.Library.Json
import L1Agent.Library.Past
import L1Agent.Library.Polling
import L1Agent.Library.Transactions

/-! # The event stream (`service/runs.py`, `/api/stream`)

The transactions of the workers write events: each is given its id when it is inserted, and can
be read when its transaction commits.  A subscriber starts from the latest event and polls for the
events above the last that it has been sent.  Other tenants take ids from the same sequence.

Heartbeats are left out.  A subscriber that disconnects is one that is stopped.

The system of the writers and the subscribers is `system`; an id may be taken and never appear, when
its transaction is rolled back.  What a subscriber is sent is the subject of
`Service/Streamed.lean`.
-/
namespace L1Agent
namespace Stream
open Interleaving Transactions Polling

/-- A row of `events`. -/
structure EventRow where
  id : Nat
  runId : Option Nat
  payload : Json
  deriving DecidableEq

/-- What a subscriber is sent, with its id. -/
abbrev Item := Nat × Json

inductive Op where
  /-- `write_event` -/
  | insert (runId : Option Nat) (event : List (String × Json))
  | commit
  | rollback
  /-- `latest_event_id` -/
  | latest
  /-- `events_after` -/
  | eventsAfter (afterId : Nat)
  | deliver (item : Item)
  /-- The server ends the transaction of a thread. -/
  | abort (thread : Nat)
  deriving DecidableEq

def Op.Val : Op → Type
  | insert .. | commit | rollback | deliver _ | abort _ => Unit
  | latest => Nat
  | eventsAfter _ => List Item

/-- A statement may fail. -/
def Statements : Signature := ⟨Op, fun o => Except Unit o.Val⟩

abbrev Prog (α : Type) := Program Statements Unit α

def execute (o : Op) : Prog o.Val := (Program.op (E := Statements) o).bind Program.ofExcept

/-! ## The programs -/

/-- The events of a transaction, among what else it does. -/
def writeEvents : List (Option Nat × List (String × Json)) → Prog Unit
  | [] => pure ()
  | (runId, event) :: events => do
    execute (.insert runId event)
    writeEvents events

/-- A transaction that writes events. -/
def record (events : List (Option Nat × List (String × Json))) : Prog Unit := do
  let result ← (writeEvents events).attempt
  match result with
  | .ok _ => execute .commit
  | .error e => do
    execute .rollback
    throw e

/-- `for event_id, payload in rows` -/
def deliverAll : List Item → Prog Unit
  | [] => pure ()
  | row :: rows => do
    execute (.deliver row)
    deliverAll rows

/-- `last`, after the loop. -/
def lastId (last : Nat) (rows : List Item) : Nat := (rows.getLast?.map (·.1)).getD last

/-- `feed`, for as many polls. -/
def feed : Nat → Nat → Prog Unit
  | 0, _ => pure ()
  | polls + 1, last => do
    let rows : List Item ← execute (.eventsAfter last)
    deliverAll rows
    feed polls (lastId last rows)

/-- `stream` -/
def stream (polls : Nat) : Prog Unit := do
  let last : Nat ← execute .latest
  feed polls last

/-! ## The events -/

structure Store where
  events : List (Slot EventRow) := []
  nextId : Nat := 1
  /-- The threads whose transaction the server has ended. -/
  gone : List Nat := []

/-- What the environment settles. -/
structure Choice where
  fails : Bool := false
  /-- A commit is carried out, and its answer lost. -/
  lost : Bool := false
  /-- The ids that others have taken of the sequence. -/
  taken : Nat := 0
  now : String := ""

/-- The payload of `write_event`. -/
def stamped (event : List (String × Json)) (now : String) : Json :=
  .obj (Json.setField event "ts" (((Json.obj event).getD "ts" .null).orElse (.str now)))

namespace Store

def eventsLimit : Nat := 200

/-- The committed events, as they are sent. -/
def visible (s : Store) : List Item := (committed s.events).map fun e => (e.id, e.payload)

def latestId (s : Store) : Nat := (s.visible.map (·.1)).foldr max 0

def rolledBack (t : Nat) (s : Store) : Store :=
  { s with events := Transactions.rollback t s.events, gone := s.gone.filter (· ≠ t) }

def committedBy (t : Nat) (s : Store) : Store :=
  { s with events := Transactions.commit t s.events }

/-- The event gets the next id of the sequence. -/
def inserted (t : Nat) (runId : Option Nat) (payload : Json) (taken : Nat) (s : Store) : Store :=
  { s with
    events := Transactions.insert t ⟨s.nextId + taken, runId, payload⟩ s.events
    nextId := s.nextId + taken + 1 }

/-- What an operation of thread `t` answers and leaves. -/
def run (t : Nat) (o : Op) (ch : Choice) (s : Store) : Except Unit o.Val × Store :=
  match o with
  | .insert runId event =>
    if ch.fails ∨ t ∈ s.gone then (.error (), s.rolledBack t)
    else (.ok (), s.inserted t runId (stamped event ch.now) ch.taken)
  | .commit =>
    if ch.fails ∨ t ∈ s.gone then (.error (), s.rolledBack t)
    else (if ch.lost then .error () else .ok (), s.committedBy t)
  | .rollback => (.ok (), s.rolledBack t)
  | .abort thread => (.ok (), { s.rolledBack thread with gone := thread :: s.gone })
  | .latest =>
    if ch.fails then (.error (), s) else (.ok s.latestId, s)
  | .eventsAfter afterId =>
    if ch.fails then (.error (), s)
    else (.ok (page eventsLimit Prod.fst afterId s.visible), s)
  | .deliver _ => (.ok (), s)

end Store

/-- A tenant's events, with any transactions and any subscribers. -/
def service : System Statements Unit Store where
  Choice := Choice
  run t o ch s := some (s.run t o ch)
  Entry p := (∃ events, p = record events) ∨ (∃ polls, p = stream polls) ∨
    ∃ thread, p = execute (.abort thread)

/-! ## What a subscriber has done -/

/-- What an answer does to a subscriber. -/
def heard : (o : Op) → Except Unit o.Val → Follower Item → Follower Item
  | .latest, .ok last, r => { r with cursor := last }
  | .eventsAfter _, .ok rows, r => r.read Prod.fst rows
  | .deliver _, _, r => r.hand
  | _, _, r => r

/-- A page has been read. -/
def isPage : (o : Op) → Except Unit o.Val → Bool
  | .eventsAfter _, .ok _ => true
  | _, _ => false

def reader (past : List Statements.Done) : Follower Item :=
  past.foldl (fun r x => heard x.op x.answer r) {}

/-- The pages that have been read. -/
def polls (past : List Statements.Done) : Nat := past.countP fun x => isPage x.op x.answer

/-- The subscription has begun. -/
def subscribed (past : List Statements.Done) : Bool :=
  past.any fun x => match x.op, x.answer with
    | .latest, .ok _ => true
    | _, _ => false

theorem reader_snoc (past : List Statements.Done) (x : Statements.Done) :
    reader (past ++ [x]) = heard x.op x.answer (reader past) := by
  simp only [reader, List.foldl_append, List.foldl_cons, List.foldl_nil]

theorem polls_snoc (past : List Statements.Done) (x : Statements.Done) :
    polls (past ++ [x]) = polls past + if isPage x.op x.answer then 1 else 0 := by
  simp only [polls, List.countP_append, List.countP_singleton]

/-- **What a thread does** after what it has done: it subscribes first, and polls from its cursor
once it has handed on what it has read. -/
def Allowed (past : List Statements.Done) : Op → Prop
  | .latest => past = []
  | .eventsAfter afterId => afterId = (reader past).cursor ∧ (reader past).pending = []
  | .deliver item => (reader past).pending.head? = some item
  | _ => True

section
variable {past : List Statements.Done}

theorem follows_execute {o : Op} {Q : List Statements.Done → Except Unit o.Val → Prop}
    (hallowed : Allowed past o) (h : ∀ x : Except Unit o.Val, Q (past ++ [⟨o, x⟩]) x) :
    (execute o).Follows Allowed past Q := by
  refine ⟨hallowed, fun x => ?_⟩
  cases x with
  | ok value => exact h (.ok value)
  | error e => exact h (.error e)

theorem follows_writeEvents (events : List (Option Nat × List (String × Json))) :
    (writeEvents events).Follows Allowed past fun _ _ => True := by
  induction events generalizing past with
  | nil => trivial
  | cons x events ih =>
    refine Program.Follows.bind (follows_execute trivial fun y => ?_)
    cases y with
    | ok u => exact ih
    | error e => trivial

theorem follows_record (events : List (Option Nat × List (String × Json))) :
    (record events).Follows Allowed past fun _ _ => True := by
  refine Program.Follows.bind (Program.Follows.attempt
    ((follows_writeEvents events).mono fun past' r _ => ?_))
  cases r with
  | ok u => exact follows_execute trivial fun _ => trivial
  | error e =>
    refine Program.Follows.bind (follows_execute trivial fun x => ?_)
    cases x with
    | ok u => trivial
    | error e => trivial

theorem follows_deliverAll (rows : List Item) (hpending : (reader past).pending = rows) :
    (deliverAll rows).Follows Allowed past fun past' r => r = .ok () →
      (reader past').pending = [] ∧ (reader past').cursor = (reader past).cursor := by
  induction rows generalizing past with
  | nil => exact fun _ => ⟨hpending, rfl⟩
  | cons row rows ih =>
    have hallowed : Allowed past (.deliver row) := by
      show (reader past).pending.head? = some row
      rw [hpending]
      rfl
    refine Program.Follows.bind (follows_execute hallowed fun x => ?_)
    have hread : reader (past ++ [⟨.deliver row, x⟩]) = (reader past).hand := by
      rw [reader_snoc]
      rfl
    cases x with
    | error e => rintro ⟨⟩
    | ok u =>
      refine (ih ?_).mono fun past' r h hr => ?_
      · rw [hread]
        show (reader past).pending.tail = rows
        rw [hpending]
        rfl
      · obtain ⟨hnone, hcursor⟩ := h hr
        refine ⟨hnone, hcursor.trans ?_⟩
        rw [hread]
        rfl

theorem follows_feed (n last : Nat) (hlast : (reader past).cursor = last)
    (hpending : (reader past).pending = []) :
    (feed n last).Follows Allowed past fun _ _ => True := by
  induction n generalizing past last with
  | zero => trivial
  | succ n ih =>
    have hallowed : Allowed past (.eventsAfter last) := ⟨hlast.symm, hpending⟩
    refine Program.Follows.bind (follows_execute hallowed fun x => ?_)
    cases x with
    | error e => trivial
    | ok rows =>
      have hread : reader (past ++ [⟨.eventsAfter last, .ok rows⟩]) =
          (reader past).read Prod.fst rows := by
        rw [reader_snoc]
        rfl
      refine Program.Follows.bind ((follows_deliverAll rows (by rw [hread]; rfl)).mono
        fun past' r h => ?_)
      cases r with
      | error e => trivial
      | ok u =>
        obtain ⟨hnone, hcursor⟩ := h rfl
        refine ih (lastId last rows) ?_ hnone
        rw [hcursor, hread, ← hlast]
        rfl

theorem follows_stream (n : Nat) : (stream n).Follows Allowed [] fun _ _ => True := by
  refine Program.Follows.bind (follows_execute rfl fun x => ?_)
  cases x with
  | error e => trivial
  | ok last => exact follows_feed n last rfl rfl

theorem entry_follows {p : Prog Unit} (h : service.Entry p) :
    p.Follows Allowed [] fun _ _ => True := by
  rcases h with ⟨events, rfl⟩ | ⟨n, rfl⟩ | ⟨thread, rfl⟩
  · exact follows_record events
  · exact follows_stream n
  · exact follows_execute trivial fun _ => trivial

end

end Stream
end L1Agent
