import L1Agent.Library.FixedWindows
import Mathlib.Data.List.Induction
import Mathlib.Data.Rat.Floor

/-! # The rate limit (`api/middleware.py`)

A request is counted in the minute in which it comes, for its client and its kind of route; refused
requests are counted too.  Rows of earlier minutes are dropped when there are many.

`limit_exact` says after any requests whether the next one goes through: exactly when fewer than the
limit have come from its client, for its kind of route, in its minute.  The table is kept exact by
one request (`exact_call`) and so by every run (`exact_after`).
-/
namespace L1Agent
namespace RateLimit
open FixedWindows

inductive Bucket where
  | api | login
  deriving DecidableEq

/-- What is read of a scope. -/
structure Scope where
  type : String
  path : String
  client : Option (String × Nat)

/-- What is counted by itself. -/
structure Key where
  client : String
  bucket : Bucket
  deriving DecidableEq

/-- `self._windows` -/
abbrev Windows := Table Key Int

/-- More rows than this are not kept of earlier windows. -/
def maxRows : Nat := 10000

/-- `int(clock() // 60)` -/
def windowOf (clock : Rat) : Int := ⌊clock / 60⌋

variable (limits : Bucket → Int)

/-- `_allowed` -/
def allowed (clock : Rat) (key : Key) (windows : Windows) : Bool × Windows :=
  let window := windowOf clock
  let row := (windows.lookup key).getD (window, 0)
  let row := if row.1 ≠ window then (window, 0) else row
  let count := row.2 + 1
  let windows := windows.put key (row.1, count)
  let windows := if maxRows < windows.length then windows.prune window else windows
  (decide ((count : Int) ≤ limits key.bucket), windows)

/-- The client and the bucket that the request is counted for; some are not counted. -/
def Scope.key? (scope : Scope) : Option Key :=
  if scope.type ≠ "http" ∨ scope.path = "/health" then none
  else
    let client := (scope.client.getD ("unknown", 0)).1
    some ⟨client, if scope.path.startsWith "/auth/" then .login else .api⟩

/-- The request goes to the application, or is answered with 429. -/
inductive Outcome where
  | app | tooManyRequests
  deriving DecidableEq

/-- `__call__` -/
def call (clock : Rat) (scope : Scope) (windows : Windows) : Outcome × Windows :=
  match scope.key? with
  | none => (.app, windows)
  | some key =>
    let (ok, windows) := allowed limits clock key windows
    (if ok then .app else .tooManyRequests, windows)

/-- The table after these requests, each at a reading of the clock. -/
def after (requests : List (Rat × Scope)) : Windows :=
  requests.foldl (fun windows request => (call limits request.1 request.2 windows).2) []

/-! ## The count is exact -/

/-- What was counted of the requests. -/
def seen (requests : List (Rat × Scope)) : List (Key × Int) :=
  requests.filterMap fun request => request.2.key?.map fun key => (key, windowOf request.1)

theorem windowOf_mono {clock later : Rat} (h : clock ≤ later) : windowOf clock ≤ windowOf later := by
  unfold windowOf
  exact Int.floor_mono (by gcongr)

/-- The decision is taken on the count that the table has; a row may go afterwards. -/
theorem allowed_eq (clock : Rat) (key : Key) (windows : Windows) :
    allowed limits clock key windows =
      let count := windows.counted key (windowOf clock) + 1
      let table := windows.put key (windowOf clock, count)
      (decide ((count : Int) ≤ limits key.bucket),
        if maxRows < table.length then table.prune (windowOf clock) else table) := by
  have hrow : (if ((windows.lookup key).getD (windowOf clock, 0)).1 ≠ windowOf clock then
      (windowOf clock, 0) else (windows.lookup key).getD (windowOf clock, 0)) =
        (windowOf clock, windows.counted key (windowOf clock)) := by
    unfold Table.counted
    rcases windows.lookup key with _ | ⟨start, count⟩
    · simp
    · by_cases hstart : start = windowOf clock
      · simp [hstart]
      · simp [hstart]
  unfold allowed
  simp only [hrow]

/-- **One request** keeps the table exact. -/
theorem exact_call {requests : List (Rat × Scope)} {clock : Rat} {windows : Windows}
    (h : Exact (seen requests) (windowOf clock) windows) (scope : Scope) :
    Exact (seen (requests ++ [(clock, scope)])) (windowOf clock)
      (call limits clock scope windows).2 := by
  have hseen : seen (requests ++ [(clock, scope)]) =
      seen requests ++ (scope.key?.map fun key => (key, windowOf clock)).toList := by
    unfold seen
    rw [List.filterMap_append]
    cases hkey : scope.key? <;> simp [hkey]
  rw [hseen]
  unfold call
  match scope.key? with
  | none =>
    show Exact (seen requests ++ []) _ _
    rw [List.append_nil]
    exact h
  | some key =>
    show Exact (seen requests ++ [(key, windowOf clock)]) _ (allowed limits clock key windows).2
    rw [allowed_eq]
    have hhit := h.hit key
    by_cases hmany : maxRows < (windows.put key
        (windowOf clock, windows.counted key (windowOf clock) + 1)).length
    · simp only [if_pos hmany]
      exact hhit.prune
    · simp only [if_neg hmany]
      exact hhit

/-- **Every run** keeps it, at any later reading of the clock. -/
theorem exact_after (requests : List (Rat × Scope)) {clock : Rat}
    (hclock : ((requests.map (·.1)) ++ [clock]).Pairwise (· ≤ ·)) :
    Exact (seen requests) (windowOf clock) (after limits requests) := by
  induction requests using List.reverseRecOn generalizing clock with
  | nil => exact Exact.nil _
  | append_singleton requests request ih =>
    obtain ⟨time, scope⟩ := request
    rw [List.map_append, List.append_assoc] at hclock
    obtain ⟨-, hlast, hbefore⟩ := List.pairwise_append.mp hclock
    have hle : time ≤ clock := List.rel_of_pairwise_cons hlast (List.mem_singleton_self clock)
    have hpast : ((requests.map (·.1)) ++ [time]).Pairwise (· ≤ ·) := by
      refine hclock.sublist ?_
      exact (List.Sublist.refl _).append (List.sublist_append_left [time] [clock])
    have hstep := exact_call limits (ih hpast) scope
    unfold after at hstep ⊢
    rw [List.foldl_append]
    exact hstep.advance (windowOf_mono hle)

/-- How many requests were counted for this key in the window. -/
def countedIn (key : Key) (window : Int) (requests : List (Rat × Scope)) : Nat :=
  requests.countP fun request =>
    decide (request.2.key? = some key ∧ windowOf request.1 = window)

theorem counted_after {requests : List (Rat × Scope)} {clock : Rat}
    (hclock : ((requests.map (·.1)) ++ [clock]).Pairwise (· ≤ ·)) (key : Key) :
    (after limits requests).counted key (windowOf clock) =
      countedIn key (windowOf clock) requests := by
  rw [(exact_after limits requests hclock).exact key _ le_rfl]
  unfold times seen countedIn
  rw [List.countP_filterMap]
  refine List.countP_congr fun request _ => ?_
  rcases request.2.key? with _ | other
  · simp
  · simp

/-- **The limit is exact.**  After any requests of any clients, with a clock that does not go back, a
request that is counted goes to the application just where fewer than the limit were counted before
for its client and bucket in the window that is now; one that is not counted always does. -/
theorem limit_exact (requests : List (Rat × Scope)) (clock : Rat) (scope : Scope)
    (hclock : ((requests.map (·.1)) ++ [clock]).Pairwise (· ≤ ·)) :
    (call limits clock scope (after limits requests)).1 = .app ↔
      ∀ key, scope.key? = some key →
        (countedIn key (windowOf clock) requests : Int) < limits key.bucket := by
  unfold call
  match hkey : scope.key? with
  | none => exact ⟨fun _ key h => (nomatch h), fun _ => rfl⟩
  | some key =>
    simp only [allowed_eq, counted_after limits hclock, Option.some.injEq, forall_eq']
    by_cases hlimit : ((countedIn key (windowOf clock) requests + 1 : Nat) : Int) ≤ limits key.bucket
    · simp only [hlimit, decide_true, if_true, true_iff]
      omega
    · simp only [hlimit, decide_false, Bool.false_eq_true, if_false, reduceCtorEq, false_iff]
      omega

/-- A client may sign in once a minute: the second time in one minute it is refused, whatever others
do, and in the next it is not. -/
theorem limit_exact_login :
    (call (fun _ => 1) 59 ⟨"http", "/auth/login", some ("10.0.0.1", 1)⟩
        (after (fun _ => 1) [(1, ⟨"http", "/auth/login", some ("10.0.0.1", 1)⟩),
          (2, ⟨"http", "/auth/login", none⟩)])).1 = .tooManyRequests ∧
      (call (fun _ => 1) 60 ⟨"http", "/auth/login", some ("10.0.0.1", 1)⟩
        (after (fun _ => 1) [(1, ⟨"http", "/auth/login", some ("10.0.0.1", 1)⟩)])).1 = .app := by
  refine ⟨by decide +kernel, (limit_exact (fun _ => 1)
    [(1, ⟨"http", "/auth/login", some ("10.0.0.1", 1)⟩)] 60
    ⟨"http", "/auth/login", some ("10.0.0.1", 1)⟩ (by decide +kernel)).mpr ?_⟩
  decide +kernel

end RateLimit
end L1Agent
