import L1Agent.Library.Json
import L1Agent.Library.Past
import Mathlib.Algebra.Order.Ring.Rat
import Mathlib.Tactic.Linarith

/-! # Retries behind a circuit breaker (`utils/retry.py`)

Coroutines share a breaker: each attempt asks it first and tells it how the call went.  What it
answers is a function of what it has been told (`Admits`): too many failures in a row close the way
until the last of them is long enough ago.

`Settings.run_retries` is about one call, whatever the function, the breaker and the waits answer:
how often it is tried, what is reported and waited for in between, and that the result is the last
try's own.  `breaker_guards` is about any number of them sharing a breaker in any order: it answers
by its history (`allow_admits`), and no call is made that it has not just let through.
-/
namespace L1Agent
namespace Retry
open Interleaving

/-! ## The breaker -/

inductive CircuitState where
  | closed
  | opened
  | halfOpen
  deriving DecidableEq, Repr

/-- `CircuitBreaker`; instants are readings of the monotonic clock. -/
structure CircuitBreaker where
  failureThreshold : Int := 5
  resetTimeoutSeconds : Int := 60
  failureCount : Int := 0
  state : CircuitState := .closed
  lastFailureTime : Rat := 0
  deriving DecidableEq

namespace CircuitBreaker
variable (b : CircuitBreaker)

/-- `state`, which the reading may change. -/
def observe (now : Rat) : CircuitBreaker :=
  if b.state = .opened ∧ b.resetTimeoutSeconds ≤ now - b.lastFailureTime then
    { b with state := .halfOpen }
  else b

/-- `record_success` -/
def recordSuccess : CircuitBreaker := { b with failureCount := 0, state := .closed }

/-- `record_failure` -/
def recordFailure (now : Rat) : CircuitBreaker :=
  { b with
    failureCount := b.failureCount + 1
    lastFailureTime := now
    state := if b.failureThreshold ≤ b.failureCount + 1 then .opened else b.state }

/-- `allow_request` -/
def allowRequest (now : Rat) : Bool × CircuitBreaker :=
  ((b.observe now).state = .closed ∨ (b.observe now).state = .halfOpen, b.observe now)

end CircuitBreaker

/-! ## The loop -/

inductive Exn where
  /-- `NotRetryable` and what is derived from it -/
  | notRetryable (name : String)
  | other (name : String)
  /-- `RuntimeError` of an open breaker -/
  | blocked
  deriving DecidableEq, Repr

/-- Whether it is a `NotRetryable`. -/
def Exn.final : Exn → Bool
  | notRetryable _ => true
  | _ => false

inductive Op where
  /-- `circuit_breaker.allow_request()` -/
  | allow
  | func
  | recordSuccess
  | recordFailure
  | sleep (delay : Rat)

abbrev Op.Ans : Op → Type
  | allow => Bool
  | func => Except Exn Json
  | recordSuccess | recordFailure => Unit
  | sleep _ => Except Exn Unit

abbrev Calls : Signature := ⟨Op, Op.Ans⟩

abbrev Prog (α : Type) := Program Calls Exn α

/-- What `retry_with_backoff` is given. -/
structure Settings where
  maxAttempts : Int := 3
  baseDelay : Rat := 1
  maxDelay : Rat := 30
  /-- Whether an exception is of the `retryable_exceptions`. -/
  retryable : Exn → Bool
  /-- Whether a breaker is given. -/
  guarded : Bool

namespace Settings
variable (p : Settings)

/-- The wait after an attempt. -/
def delay (attempt : Nat) : Rat := min (p.baseDelay * 2 ^ (attempt - 1)) p.maxDelay

/-- The breaker is told of a failure, where there is one. -/
def failed : Prog Unit := if p.guarded then Program.op (E := Calls) .recordFailure else .ret ()

def succeeded : Prog Unit := if p.guarded then Program.op (E := Calls) .recordSuccess else .ret ()

/-- Whether the attempt may be made. -/
def allowed : Prog Bool := if p.guarded then Program.op (E := Calls) .allow else .ret true

/-- What is done about an exception of `func`; `again` is the next attempt. -/
def handle (left attempt : Nat) (e : Exn) (again : Prog Json) : Prog Json :=
  if e.final then p.failed.bind fun _ => .raise e
  else if p.retryable e then p.failed.bind fun _ =>
    if left = 0 then .raise e
    else (Program.op (E := Calls) (.sleep (p.delay attempt))).bind
      fun (slept : Except Exn Unit) => (Program.ofExcept slept).bind fun _ => again
  else .raise e

/-- The attempts that are left, after `done` of them that failed with `last`. -/
def attempts : (left done : Nat) → (last : Option Exn) → Prog Json
  | 0, _, last => .raise (last.getD (.other "TypeError"))
  | left + 1, done, _ => p.allowed.bind fun ok =>
    if !ok then .raise .blocked
    else (Program.op (E := Calls) .func).bind fun (answer : Except Exn Json) => match answer with
      | .ok result => p.succeeded.bind fun _ => .ret result
      | .error e => p.handle left (done + 1) e (attempts left (done + 1) (some e))

/-- `retry_with_backoff` -/
def run : Prog Json := p.attempts p.maxAttempts.toNat 0 none

end Settings

/-! ## What a call has done -/

namespace Settings
variable (p : Settings)

/-- The way was open. -/
def admitted : List Calls.Done := if p.guarded then [⟨.allow, true⟩] else []

def reported (o : Op) (x : o.Ans) : List Calls.Done := if p.guarded then [⟨o, x⟩] else []

/-- An attempt that failed, and the wait after it. -/
def failedAttempt (attempt : Nat) (e : Exn) : List Calls.Done :=
  p.admitted ++ ⟨.func, .error e⟩ :: p.reported .recordFailure () ++
    [⟨.sleep (p.delay attempt), .ok ()⟩]

/-- Attempts that failed one after the other, the last one first. -/
def transcript : List Exn → List Calls.Done
  | [] => []
  | e :: errors => transcript errors ++ p.failedAttempt (errors.length + 1) e

/-- There is an attempt left after these failures, and each of them is one to try again after. -/
structure Retried (errors : List Exn) : Prop where
  left : (errors.length : Int) < p.maxAttempts
  retryable : ∀ e ∈ errors, e.final = false ∧ p.retryable e = true

/-- What is done after `past`. -/
inductive InTurn (past : List Calls.Done) : Op → Prop
  | ask (errors : List Exn) (hretried : p.Retried errors) (hguarded : p.guarded = true)
      (hpast : past = p.transcript errors) : InTurn past .allow
  | call (errors : List Exn) (hretried : p.Retried errors)
      (hpast : past = p.transcript errors ++ p.admitted) : InTurn past .func
  | succeeded (errors : List Exn) (result : Json) (hretried : p.Retried errors)
      (hguarded : p.guarded = true)
      (hpast : past = p.transcript errors ++ p.admitted ++ [⟨.func, .ok result⟩]) :
      InTurn past .recordSuccess
  | failed (errors : List Exn) (e : Exn) (hretried : p.Retried errors) (hguarded : p.guarded = true)
      (hcaught : e.final = true ∨ p.retryable e = true)
      (hpast : past = p.transcript errors ++ p.admitted ++ [⟨.func, .error e⟩]) :
      InTurn past .recordFailure
  | wait (errors : List Exn) (e : Exn) (hretried : p.Retried (e :: errors))
      (hpast : past = p.transcript errors ++ p.admitted ++
        ⟨.func, .error e⟩ :: p.reported .recordFailure ()) :
      InTurn past (.sleep (p.delay (errors.length + 1)))

/-- How a call ends. -/
inductive Ended (past : List Calls.Done) : Except Exn Json → Prop
  | nothing (hnone : p.maxAttempts ≤ 0) (hpast : past = []) :
      Ended past (.error (.other "TypeError"))
  | blocked (errors : List Exn) (hretried : p.Retried errors) (hguarded : p.guarded = true)
      (hpast : past = p.transcript errors ++ [⟨.allow, false⟩]) : Ended past (.error .blocked)
  | returned (errors : List Exn) (result : Json) (hretried : p.Retried errors)
      (hpast : past = p.transcript errors ++ p.admitted ++
        ⟨.func, .ok result⟩ :: p.reported .recordSuccess ()) : Ended past (.ok result)
  | gaveUp (errors : List Exn) (e : Exn) (hretried : p.Retried errors)
      (hlast : e.final = true ∨ p.retryable e = true ∧ (errors.length : Int) + 1 = p.maxAttempts)
      (hpast : past = p.transcript errors ++ p.admitted ++
        ⟨.func, .error e⟩ :: p.reported .recordFailure ()) : Ended past (.error e)
  | passed (errors : List Exn) (e : Exn) (hretried : p.Retried errors)
      (hother : e.final = false ∧ p.retryable e = false)
      (hpast : past = p.transcript errors ++ p.admitted ++ [⟨.func, .error e⟩]) :
      Ended past (.error e)
  | cancelled (errors : List Exn) (e e' : Exn) (hretried : p.Retried (e :: errors))
      (hpast : past = p.transcript errors ++ p.admitted ++
        ⟨.func, .error e⟩ :: p.reported .recordFailure () ++
        [⟨.sleep (p.delay (errors.length + 1)), .error e'⟩]) : Ended past (.error e')

variable {p}

theorem follows_allowed {errors : List Exn} (hretried : p.Retried errors) :
    p.allowed.Follows p.InTurn (p.transcript errors) fun past r =>
      r = .ok true ∧ past = p.transcript errors ++ p.admitted ∨
      p.guarded = true ∧ r = .ok false ∧ past = p.transcript errors ++ [⟨.allow, false⟩] := by
  unfold allowed
  refine .ite (fun hguarded => .op (.ask errors hretried hguarded rfl) fun (ok : Bool) => ?_)
    fun hguarded => ?_
  · cases ok with
    | true => exact Or.inl ⟨rfl, by rw [admitted, if_pos hguarded]⟩
    | false => exact Or.inr ⟨hguarded, rfl, rfl⟩
  · exact Or.inl ⟨rfl, by rw [admitted, if_neg hguarded, List.append_nil]⟩

theorem follows_failed {past : List Calls.Done}
    (h : p.guarded = true → p.InTurn past .recordFailure) :
    p.failed.Follows p.InTurn past fun past' r =>
      r = .ok () ∧ past' = past ++ p.reported .recordFailure () := by
  unfold failed reported
  by_cases hguarded : p.guarded = true
  · rw [if_pos hguarded, if_pos hguarded]
    exact .op (h hguarded) fun _ => ⟨rfl, rfl⟩
  · rw [if_neg hguarded, if_neg hguarded]
    exact ⟨rfl, (List.append_nil _).symm⟩

theorem follows_succeeded {past : List Calls.Done}
    (h : p.guarded = true → p.InTurn past .recordSuccess) :
    p.succeeded.Follows p.InTurn past fun past' r =>
      r = .ok () ∧ past' = past ++ p.reported .recordSuccess () := by
  unfold succeeded reported
  by_cases hguarded : p.guarded = true
  · rw [if_pos hguarded, if_pos hguarded]
    exact .op (h hguarded) fun _ => ⟨rfl, rfl⟩
  · rw [if_neg hguarded, if_neg hguarded]
    exact ⟨rfl, (List.append_nil _).symm⟩

theorem follows_handle {left : Nat} {errors : List Exn} {e : Exn} {again : Prog Json}
    (hretried : p.Retried errors) (hleft : (errors.length : Int) + (left + 1) = p.maxAttempts)
    (hagain : p.Retried (e :: errors) →
      again.Follows p.InTurn (p.transcript (e :: errors)) p.Ended) :
    (p.handle left (errors.length + 1) e again).Follows p.InTurn
      (p.transcript errors ++ p.admitted ++ [⟨.func, .error e⟩]) p.Ended := by
  have hfailed : e.final = true ∨ p.retryable e = true →
      p.failed.Follows p.InTurn (p.transcript errors ++ p.admitted ++ [⟨.func, .error e⟩])
        fun past r => r = .ok () ∧ past = p.transcript errors ++ p.admitted ++
          ⟨.func, .error e⟩ :: p.reported .recordFailure () := by
    intro hcaught
    refine (follows_failed fun hguarded => .failed errors e hretried hguarded hcaught rfl).mono ?_
    rintro past r ⟨hr, hpast⟩
    exact ⟨hr, by rw [hpast, List.append_assoc, List.singleton_append]⟩
  unfold handle
  refine .ite (fun hfinal => .bind ?_) fun hfinal => .ite (fun hretryable => .bind ?_)
    fun hretryable => ?_
  · refine (hfailed (Or.inl hfinal)).mono ?_
    rintro past r ⟨rfl, hpast⟩
    exact .gaveUp errors e hretried (Or.inl hfinal) hpast
  · refine (hfailed (Or.inr hretryable)).mono ?_
    rintro past r ⟨rfl, hpast⟩
    dsimp only
    refine .ite (fun hnone => ?_) fun hsome => ?_
    · refine .gaveUp errors e hretried (Or.inr ⟨hretryable, ?_⟩) hpast
      rw [← hleft, hnone]
      simp
    · have hmore : p.Retried (e :: errors) := by
        refine ⟨?_, fun e' he' => ?_⟩
        · rw [← hleft, List.length_cons]
          omega
        · rcases List.mem_cons.mp he' with rfl | he'
          · exact ⟨Bool.not_eq_true _ ▸ hfinal, hretryable⟩
          · exact hretried.retryable e' he'
      refine .bind (.op (.wait errors e hmore hpast) fun (slept : Except Exn Unit) => ?_)
      cases slept with
      | ok _ =>
        have hnext : past ++ [⟨.sleep (p.delay (errors.length + 1)), .ok ()⟩] =
            p.transcript (e :: errors) := by
          rw [hpast]
          simp [transcript, failedAttempt]
        rw [hnext]
        exact hagain hmore
      | error e' => exact .cancelled errors e e' hmore (by rw [hpast])
  · rw [Bool.not_eq_true] at hfinal hretryable
    exact .passed errors e hretried ⟨hfinal, hretryable⟩ rfl

theorem follows_attempt {left : Nat} {errors : List Exn} {last : Option Exn}
    (hretried : p.Retried errors) (hleft : (errors.length : Int) + (left + 1) = p.maxAttempts)
    (hagain : ∀ e, p.Retried (e :: errors) →
      (p.attempts left (errors.length + 1) (some e)).Follows p.InTurn (p.transcript (e :: errors))
        p.Ended) :
    (p.attempts (left + 1) errors.length last).Follows p.InTurn (p.transcript errors) p.Ended := by
  unfold attempts
  refine .bind ((follows_allowed hretried).mono ?_)
  rintro past r (⟨rfl, rfl⟩ | ⟨hguarded, rfl, rfl⟩)
  · refine .bind (.op (.call errors hretried rfl) fun (answer : Except Exn Json) => ?_)
    cases answer with
    | ok result =>
      refine .bind ((follows_succeeded fun hguarded =>
        .succeeded errors result hretried hguarded rfl).mono ?_)
      rintro past r ⟨rfl, rfl⟩
      exact .returned errors result hretried (by rw [List.append_assoc, List.singleton_append])
    | error e => exact follows_handle hretried hleft (hagain e)
  · exact .blocked errors hretried hguarded rfl

theorem follows_attempts (left : Nat) : ∀ (errors : List Exn) (last : Option Exn),
    (errors.length : Int) + (left + 1) = p.maxAttempts → p.Retried errors →
    (p.attempts (left + 1) errors.length last).Follows p.InTurn (p.transcript errors) p.Ended := by
  -- on the attempts that are left; the failures so far are the past
  induction left with
  | zero =>
    intro errors last hleft hretried
    refine follows_attempt hretried hleft fun e hmore => ?_
    have := hmore.left
    rw [List.length_cons] at this
    omega
  | succ left ih =>
    intro errors last hleft hretried
    refine follows_attempt hretried hleft fun e hmore => ih (e :: errors) (some e) ?_ hmore
    rw [← hleft, List.length_cons]
    push_cast
    ring

/-- **A call with retries**: the calls of `func` come one after the other, each one after the
breaker has let it through, and after each but the last, which have failed with what may be tried
again, the breaker is told and the wait for that attempt is made; the result is that of the last
call, which is told too. -/
theorem follows_run : p.run.Follows p.InTurn [] p.Ended := by
  unfold run
  by_cases hsome : 0 < p.maxAttempts
  · obtain ⟨left, hleft⟩ : ∃ left, p.maxAttempts.toNat = left + 1 :=
      ⟨p.maxAttempts.toNat - 1, by omega⟩
    rw [hleft]
    refine follows_attempts left [] none ?_ ⟨?_, fun e he => absurd he List.not_mem_nil⟩
    · simp only [List.length_nil]
      omega
    · simpa using hsome
  · rw [show p.maxAttempts.toNat = 0 by omega]
    exact .nothing (by omega) rfl

/-! ### How often and how long -/

/-- The answers of `func`. -/
def callsOf (past : List Calls.Done) : List (Except Exn Json) :=
  past.filterMap fun d => match d with
    | ⟨.func, x⟩ => some x
    | _ => none

/-- The waits that were asked for. -/
def waitsOf (past : List Calls.Done) : List Rat :=
  past.filterMap fun d => match d with
    | ⟨.sleep delay, _⟩ => some delay
    | _ => none

@[simp] theorem callsOf_nil : callsOf [] = [] := rfl

@[simp] theorem waitsOf_nil : waitsOf [] = [] := rfl

@[simp] theorem callsOf_append (past past' : List Calls.Done) :
    callsOf (past ++ past') = callsOf past ++ callsOf past' := List.filterMap_append

@[simp] theorem waitsOf_append (past past' : List Calls.Done) :
    waitsOf (past ++ past') = waitsOf past ++ waitsOf past' := List.filterMap_append

@[simp] theorem callsOf_call (x : Except Exn Json) (past : List Calls.Done) :
    callsOf (⟨.func, x⟩ :: past) = x :: callsOf past := rfl

@[simp] theorem waitsOf_call (x : Except Exn Json) (past : List Calls.Done) :
    waitsOf (⟨.func, x⟩ :: past) = waitsOf past := rfl

@[simp] theorem callsOf_wait (delay : Rat) (x : Except Exn Unit) :
    callsOf [⟨.sleep delay, x⟩] = [] := rfl

@[simp] theorem waitsOf_wait (delay : Rat) (x : Except Exn Unit) :
    waitsOf [⟨.sleep delay, x⟩] = [delay] := rfl

@[simp] theorem callsOf_allow (ok : Bool) : callsOf [⟨.allow, ok⟩] = [] := rfl

@[simp] theorem waitsOf_allow (ok : Bool) : waitsOf [⟨.allow, ok⟩] = [] := rfl

@[simp] theorem callsOf_admitted : callsOf p.admitted = [] := by
  unfold admitted
  split <;> rfl

@[simp] theorem waitsOf_admitted : waitsOf p.admitted = [] := by
  unfold admitted
  split <;> rfl

@[simp] theorem reported_failure :
    callsOf (p.reported .recordFailure ()) = [] ∧ waitsOf (p.reported .recordFailure ()) = [] := by
  unfold reported
  split <;> exact ⟨rfl, rfl⟩

@[simp] theorem reported_success :
    callsOf (p.reported .recordSuccess ()) = [] ∧ waitsOf (p.reported .recordSuccess ()) = [] := by
  unfold reported
  split <;> exact ⟨rfl, rfl⟩

theorem callsOf_transcript (errors : List Exn) :
    callsOf (p.transcript errors) = errors.reverse.map .error := by
  induction errors with
  | nil => rfl
  | cons e errors ih => simp [transcript, failedAttempt, ih]

theorem waitsOf_transcript (errors : List Exn) :
    waitsOf (p.transcript errors) = (List.range errors.length).map fun k => p.delay (k + 1) := by
  induction errors with
  | nil => rfl
  | cons e errors ih => simp [transcript, failedAttempt, ih, List.range_succ]

/-- What a call has done at its end: the calls of `func`, all but the last of them failed with what
may be tried again, and the waits between them, in the order of the attempts. -/
structure Spent (p : Settings) (past : List Calls.Done) : Prop where
  calls : ((callsOf past).length : Int) ≤ max 0 p.maxAttempts
  failed : ∀ x ∈ (callsOf past).dropLast, ∃ e, x = .error e ∧ e.final = false ∧ p.retryable e = true
  waits : waitsOf past = (List.range (waitsOf past).length).map fun k => p.delay (k + 1)
  fewer : (waitsOf past).length ≤ (callsOf past).length
  between : (waitsOf past).length < max 1 p.maxAttempts

theorem spent_of {past : List Calls.Done} {n : Nat} (errors : List Exn)
    (hretried : p.Retried errors) (last : Option (Except Exn Json))
    (hcalls : callsOf past = errors.reverse.map .error ++ last.toList)
    (hwaits : waitsOf past = (List.range n).map fun k => p.delay (k + 1))
    (hfewer : n ≤ (callsOf past).length) (hbetween : (n : Int) < p.maxAttempts) :
    p.Spent past := by
  have hlength : (waitsOf past).length = n := by rw [hwaits, List.length_map, List.length_range]
  have hleft := hretried.left
  refine ⟨?_, ?_, by rw [hlength, hwaits], by rw [hlength]; exact hfewer, by rw [hlength]; omega⟩
  · have hlast : last.toList.length ≤ 1 := by cases last <;> simp
    rw [hcalls, List.length_append, List.length_map, List.length_reverse]
    omega
  · intro x hx
    have hx' : x ∈ errors.reverse.map (Except.error (α := Json)) := by
      rw [hcalls] at hx
      cases last with
      | none => exact (List.dropLast_sublist _).subset (by simpa using hx)
      | some y => simpa using hx
    obtain ⟨e, he, rfl⟩ := List.mem_map.mp hx'
    exact ⟨e, rfl, hretried.retryable e (List.mem_reverse.mp he)⟩

theorem Ended.spent {past : List Calls.Done} {x : Except Exn Json} (h : p.Ended past x) :
    p.Spent past := by
  cases h with
  | nothing hnone hpast =>
    subst hpast
    exact ⟨le_max_left _ _, nofun, rfl, le_rfl, lt_max_of_lt_left Int.one_pos⟩
  | blocked errors hretried hguarded hpast =>
    subst hpast
    refine spent_of errors hretried none ?_ ?_ ?_ hretried.left
    all_goals simp [callsOf_transcript, waitsOf_transcript]
  | returned errors result hretried hpast =>
    subst hpast
    refine spent_of errors hretried (some (.ok result)) ?_ ?_ ?_ hretried.left
    all_goals simp [callsOf_transcript, waitsOf_transcript]
  | gaveUp errors e hretried hlast hpast =>
    subst hpast
    refine spent_of errors hretried (some (.error e)) ?_ ?_ ?_ hretried.left
    all_goals simp [callsOf_transcript, waitsOf_transcript]
  | passed errors e hretried hother hpast =>
    subst hpast
    refine spent_of errors hretried (some (.error e)) ?_ ?_ ?_ hretried.left
    all_goals simp [callsOf_transcript, waitsOf_transcript]
  | cancelled errors e e' hretried hpast =>
    subst hpast
    refine spent_of (e :: errors) hretried none ?_ ?_ ?_ hretried.left
    all_goals simp [callsOf_transcript, waitsOf_transcript, List.range_succ]

/-- **What a call with retries does**: the calls of `func` come one after the other, each one after
the breaker has let it through, and after each but the last, which have failed with what may be
tried again, the breaker is told and the wait for that attempt is made; the result is that of the
last call, of which the breaker is told too.  There are at most `maxAttempts` of them. -/
theorem run_retries (p : Settings) :
    p.run.Follows p.InTurn [] fun past x => p.Ended past x ∧ p.Spent past :=
  follows_run.mono fun _ _ hended => ⟨hended, hended.spent⟩

end Settings

/-! ## The system -/

/-- The breaker, and the monotonic clock as it was read last. -/
structure State where
  breaker : CircuitBreaker := {}
  clock : Rat := 0
  deriving DecidableEq

/-- What the environment settles. -/
structure Choice where
  /-- What the clock is read as. -/
  reading : Rat := 0
  outcome : Except Exn Json := .ok .null
  slept : Except Exn Unit := .ok ()

/-- What an operation answers and leaves; `none` where the clock would go back. -/
def step (o : Op) (ch : Choice) (s : State) : Option (o.Ans × State) :=
  match o with
  | .allow =>
    if ch.reading < s.clock then none
    else some ((s.breaker.allowRequest ch.reading).1,
      ⟨(s.breaker.allowRequest ch.reading).2, ch.reading⟩)
  | .func => some (ch.outcome, s)
  | .recordSuccess => some ((), { s with breaker := s.breaker.recordSuccess })
  | .recordFailure =>
    if ch.reading < s.clock then none
    else some ((), ⟨s.breaker.recordFailure ch.reading, ch.reading⟩)
  | .sleep _ => some (ch.slept, s)

/-- Any calls with one breaker, under any settings. -/
def callers : System Calls Exn State where
  Choice := Choice
  run _ o ch s := step o ch s
  Entry p := ∃ settings : Settings, settings.guarded = true ∧ p = settings.run.bind fun _ => .ret ()

/-! ## What a breaker is for -/

/-- What a breaker is told. -/
inductive Outcome where
  | success
  | failure (at_ : Rat)
  deriving DecidableEq

/-- The instants of the failures since the last success, the latest first. -/
def streak : List Outcome → List Rat
  | [] => []
  | .success :: _ => []
  | .failure t :: told => t :: streak told

/-- **Whether an attempt may be made**, by what was told so far, the latest first: there are fewer
failures in a row than the threshold, or the last of them is long enough ago. -/
def Admits (threshold reset : Int) (told : List Outcome) (now : Rat) : Prop :=
  ∀ t rest, streak told = t :: rest → (streak told).length < threshold ∨ reset ≤ now - t

/-- The breaker is as it has been told. -/
structure CircuitBreaker.Agrees (b : CircuitBreaker) (told : List Outcome) (clock : Rat) :
    Prop where
  count : b.failureCount = (streak told).length
  last : ∀ t rest, streak told = t :: rest → b.lastFailureTime = t
  closed : b.state = .closed → ∀ t rest, streak told = t :: rest →
    (streak told).length < b.failureThreshold
  blocking : b.state ≠ .closed → streak told ≠ [] ∧ b.failureThreshold ≤ (streak told).length
  halfOpen : b.state = .halfOpen → b.resetTimeoutSeconds ≤ clock - b.lastFailureTime

namespace CircuitBreaker
variable {b : CircuitBreaker} {told : List Outcome} {clock now : Rat}

theorem agrees_new (threshold reset : Int) :
    Agrees { failureThreshold := threshold, resetTimeoutSeconds := reset } [] clock :=
  ⟨rfl, nofun, nofun, fun h => absurd rfl h, nofun⟩

theorem Agrees.later (h : b.Agrees told clock) (hnow : clock ≤ now) : b.Agrees told now :=
  ⟨h.count, h.last, h.closed, h.blocking, fun hstate => by
    have := h.halfOpen hstate
    linarith⟩

theorem Agrees.observe (h : b.Agrees told now) : (b.observe now).Agrees told now := by
  unfold CircuitBreaker.observe
  split_ifs with hopen
  · obtain ⟨hstate, helapsed⟩ := hopen
    exact ⟨h.count, h.last, nofun, fun _ => h.blocking (by rw [hstate]; nofun), fun _ => helapsed⟩
  · exact h

theorem agrees_recordSuccess :
    b.recordSuccess.Agrees (.success :: told) clock :=
  ⟨rfl, nofun, fun _ _ _ => nofun, fun hstate => absurd rfl hstate, nofun⟩

theorem Agrees.recordFailure (now : Rat) (h : b.Agrees told clock) :
    (b.recordFailure now).Agrees (.failure now :: told) now := by
  have hlength : ((streak (.failure now :: told)).length : Int) = b.failureCount + 1 := by
    rw [h.count]
    simp [streak]
  refine ⟨hlength.symm, ?_, ?_, ?_, ?_⟩
  · rintro t rest hstreak
    exact (List.cons.inj hstreak).1
  · intro hstate t rest _
    unfold CircuitBreaker.recordFailure at hstate ⊢
    dsimp only at hstate ⊢
    split_ifs at hstate with hmany
    rw [hlength]
    omega
  · intro hstate
    refine ⟨nofun, ?_⟩
    rw [hlength]
    show b.failureThreshold ≤ _
    unfold CircuitBreaker.recordFailure at hstate
    dsimp only at hstate
    split_ifs at hstate with hmany
    · exact hmany
    · have := (h.blocking hstate).2
      rw [← h.count] at this
      omega
  · intro hstate
    -- a breaker that is not closed has seen too many failures already
    unfold CircuitBreaker.recordFailure at hstate
    dsimp only at hstate
    split_ifs at hstate with hmany
    have := (h.blocking (by rw [hstate]; nofun)).2
    rw [← h.count] at this
    omega

/-- The answer is what the breaker is for. -/
theorem Agrees.allow_iff (h : b.Agrees told clock) (hnow : clock ≤ now) :
    (b.allowRequest now).1 = true ↔ Admits b.failureThreshold b.resetTimeoutSeconds told now := by
  unfold allowRequest
  rw [decide_eq_true_iff]
  cases hstate : b.state with
  | closed =>
    have hsame : b.observe now = b := if_neg fun hopen => by rw [hstate] at hopen; cases hopen.1
    rw [hsame]
    exact iff_of_true (Or.inl hstate) fun t rest hstreak => Or.inl (h.closed hstate t rest hstreak)
  | halfOpen =>
    have hsame : b.observe now = b := if_neg fun hopen => by rw [hstate] at hopen; cases hopen.1
    rw [hsame]
    refine iff_of_true (Or.inr hstate) fun t rest hstreak => Or.inr ?_
    have helapsed := h.halfOpen hstate
    rw [h.last t rest hstreak] at helapsed
    linarith
  | opened =>
    obtain ⟨hsome, hmany⟩ := h.blocking (by rw [hstate]; nofun)
    obtain ⟨t, rest, hstreak⟩ := List.exists_cons_of_ne_nil hsome
    have hlast := h.last t rest hstreak
    by_cases helapsed : b.resetTimeoutSeconds ≤ now - b.lastFailureTime
    · have hhalf : (b.observe now).state = .halfOpen := by
        unfold CircuitBreaker.observe
        rw [if_pos ⟨hstate, helapsed⟩]
      rw [hlast] at helapsed
      refine iff_of_true (Or.inr hhalf) fun t' rest' hstreak' => Or.inr ?_
      obtain ⟨rfl, -⟩ := List.cons.inj (hstreak.symm.trans hstreak')
      exact helapsed
    · have hsame : b.observe now = b := if_neg fun hopen => helapsed hopen.2
      rw [hsame, hstate]
      refine iff_of_false (by rintro (h | h) <;> cases h) fun hadmits => ?_
      rw [hlast] at helapsed
      rcases hadmits t rest hstreak with hfew | hlong
      · omega
      · exact helapsed hlong

theorem observe_thresholds (b : CircuitBreaker) (now : Rat) :
    (b.observe now).failureThreshold = b.failureThreshold ∧
    (b.observe now).resetTimeoutSeconds = b.resetTimeoutSeconds := by
  unfold CircuitBreaker.observe
  split_ifs <;> exact ⟨rfl, rfl⟩

end CircuitBreaker

/-! ## Every run -/

/-- What the event tells the breaker. -/
def tells (ev : callers.Event) : Option Outcome :=
  match ev.op with
  | .recordSuccess => some .success
  | .recordFailure => some (.failure (ev.choice : Choice).reading)
  | _ => none

/-- What the breaker has been told, the latest first. -/
def told (tr : List callers.Event) : List Outcome := (tr.filterMap tells).reverse

theorem told_snoc (tr : List callers.Event) (ev : callers.Event) :
    told (tr ++ [ev]) = (tells ev).toList ++ told tr := by
  unfold told
  rw [List.filterMap_append, List.reverse_append]
  cases h : tells ev <;> simp [h]

/-- The breaker is the one that was made, and as it has been told. -/
structure Made (threshold reset : Int) (s : State) (tr : List callers.Event) : Prop where
  threshold : s.breaker.failureThreshold = threshold
  reset : s.breaker.resetTimeoutSeconds = reset
  agrees : s.breaker.Agrees (told tr) s.clock

variable {threshold reset : Int}

theorem made_step {pre : List callers.Event} {ev : callers.Event}
    (h : Made threshold reset ev.before pre)
    (hrun : callers.run ev.thread ev.op ev.choice ev.before = some (ev.answer, ev.after)) :
    Made threshold reset ev.after (pre ++ [ev]) := by
  obtain ⟨hthreshold, hreset, hagrees⟩ := h
  obtain ⟨t, o, ch, before, x, after⟩ := ev
  change Retry.step o ch before = some (x, after) at hrun
  cases o with
  | allow =>
    obtain ⟨hclock, hnext⟩ := Option.ite_none_left_eq_some.mp hrun
    cases hnext
    obtain ⟨hsame, hsame'⟩ := before.breaker.observe_thresholds (ch : Choice).reading
    refine ⟨hsame.trans hthreshold, hsame'.trans hreset, ?_⟩
    rw [told_snoc]
    exact (hagrees.later (not_lt.mp hclock)).observe
  | func =>
    cases hrun
    refine ⟨hthreshold, hreset, ?_⟩
    rw [told_snoc]
    exact hagrees
  | recordSuccess =>
    cases hrun
    refine ⟨hthreshold, hreset, ?_⟩
    rw [told_snoc]
    exact CircuitBreaker.agrees_recordSuccess
  | recordFailure =>
    obtain ⟨hclock, hnext⟩ := Option.ite_none_left_eq_some.mp hrun
    cases hnext
    refine ⟨hthreshold, hreset, ?_⟩
    rw [told_snoc]
    exact hagrees.recordFailure _
  | sleep delay =>
    cases hrun
    refine ⟨hthreshold, hreset, ?_⟩
    rw [told_snoc]
    exact hagrees

/-- A fresh breaker. -/
def fresh (threshold reset : Int) (clock : Rat) : State :=
  ⟨{ failureThreshold := threshold, resetTimeoutSeconds := reset }, clock⟩

variable {cond : callers.recorded.Cond} {clock : Rat}
  {d : Config Calls Exn (State × List callers.Event)} {pre post : List callers.Event}
  {ev : callers.Event}

theorem made_of_reaches
    (hr : callers.recorded.Reaches cond (Config.idle (fresh threshold reset clock, [])) d) :
    System.Each (fun pre ev => Made threshold reset ev.before pre) d.shared.2 := by
  refine (System.recorded_induction (I := Made threshold reset) hr ?_ ?_).2
  · exact ⟨rfl, rfl, CircuitBreaker.agrees_new threshold reset⟩
  · intro pre ev post hsplit h
    exact made_step h (System.recorded_each hr pre ev post hsplit).2

/-- **The breaker's answer is a function of what it has been told.** -/
theorem allow_admits
    (hr : callers.recorded.Reaches cond (Config.idle (fresh threshold reset clock, [])) d)
    (hsplit : d.shared.2 = pre ++ ev :: post) {ok : Bool}
    (hdone : (⟨ev.op, ev.answer⟩ : Calls.Done) = ⟨.allow, ok⟩) :
    ok = true ↔ Admits threshold reset (told pre) (ev.choice : Choice).reading := by
  obtain ⟨hthreshold, hreset, hagrees⟩ := made_of_reaches hr pre ev post hsplit
  have hrun := (System.recorded_each hr pre ev post hsplit).2
  obtain ⟨t, o, ch, before, x, after⟩ := ev
  cases hdone
  obtain ⟨hclock, hnext⟩ := Option.ite_none_left_eq_some.mp hrun
  have hok : (before.breaker.allowRequest (ch : Choice).reading).1 = x :=
    congrArg Prod.fst (Option.some.inj hnext)
  rw [← hok, ← hthreshold, ← hreset]
  exact hagrees.allow_iff (not_lt.mp hclock)

/-- The call has been let through. -/
theorem asked_of_turn {p : Settings} {past : List Calls.Done} (hguarded : p.guarded = true)
    (h : p.InTurn past .func) : ∃ before, past = before ++ [⟨.allow, true⟩] := by
  cases h with
  | call errors hretried hpast =>
    exact ⟨p.transcript errors, by rw [hpast, Settings.admitted, if_pos hguarded]⟩

/-- The call follows, in its own coroutine, an answer of the breaker, which by what it had been
told by then let it through. -/
def LetThrough (threshold reset : Int) (pre : List callers.Event) (ev : callers.Event) : Prop :=
  ∃ before e mid, pre = before ++ e :: mid ∧ e.op = .allow ∧ e.thread = ev.thread ∧
    (∀ e' ∈ mid, e'.thread ≠ ev.thread) ∧
    Admits threshold reset (told before) (e.choice : Choice).reading

/-- **No call is made past an open breaker**, in whatever order the calls that share it are
carried out, and the breaker is open to all of them alike: it answers by what it has been told. -/
theorem breaker_guards
    (hr : callers.recorded.Reaches cond (Config.idle (fresh threshold reset clock, [])) d)
    (hsplit : d.shared.2 = pre ++ ev :: post) :
    (∀ ok : Bool, (⟨ev.op, ev.answer⟩ : Calls.Done) = ⟨.allow, ok⟩ →
      (ok = true ↔ Admits threshold reset (told pre) (ev.choice : Choice).reading)) ∧
    (ev.op = .func → LetThrough threshold reset pre ev) := by
  refine ⟨fun ok => allow_admits hr hsplit, fun hop => ?_⟩
  have hfollows : ∀ p, callers.Entry p →
      p.Follows (fun past o => o = Op.func → ∃ before, past = before ++ [⟨.allow, true⟩]) []
        fun _ _ => True := by
    rintro p ⟨settings, hguarded, rfl⟩
    have hrun : settings.run.Follows _ [] settings.Ended := settings.follows_run.allows
      fun past o hturn (hop : o = .func) => asked_of_turn hguarded (hop ▸ hturn)
    refine .bind (hrun.mono fun past x _ => ?_)
    cases x <;> exact True.intro
  obtain ⟨past, hpast⟩ := System.recorded_follows hfollows hr pre ev post hsplit hop
  obtain ⟨before, e, mid, rfl, hthread, hdone, -, hmid⟩ := System.own_split hpast
  refine ⟨before, e, mid, rfl, by cases e; cases hdone; rfl, hthread, fun e' he' hthread' => ?_, ?_⟩
  · have := System.own_mem he'
    rw [hthread', hmid] at this
    exact absurd this List.not_mem_nil
  · exact (allow_admits hr (by rw [hsplit, List.append_assoc, List.cons_append]) hdone.symm).mp rfl

/-! ### A run -/

def sampleSettings : Settings := { retryable := fun _ => true, guarded := true }

/-- The first call fails for good, which opens the breaker; the second is refused; the third comes
when the way is open again. -/
def sampleMoves : List callers.recorded.Move :=
  .start (sampleSettings.run.bind fun _ => .ret ()) ::
    .start (sampleSettings.run.bind fun _ => .ret ()) ::
    .start (sampleSettings.run.bind fun _ => .ret ()) ::
    [(0, ({ reading := 1 } : Choice)),
      (0, { outcome := .error (.notRetryable "RunnerUnavailable") }), (0, { reading := 2 }),
      (1, { reading := 3 }), (2, { reading := 70 }), (2, {})].map fun x => .op x.1 x.2

theorem starts_sampleMoves : callers.recorded.Starts sampleMoves :=
  have hentry : callers.recorded.Entry (sampleSettings.run.bind fun _ => .ret ()) := ⟨_, rfl, rfl⟩
  .start hentry (.start hentry (.start hentry .each))

/-- The breaker's answers, and the calls. -/
def mark (ev : callers.Event) : Option (Option Bool) :=
  match ev with
  | ⟨_, .allow, _, _, ok, _⟩ => some (some ok)
  | ⟨_, .func, _, _, _, _⟩ => some none
  | _ => none

theorem sample_play : (callers.recorded.play (Config.idle (fresh 1 60 0, [])) sampleMoves).map
    (fun d => d.shared.2.map mark) =
      some [some (some true), some none, none, some (some false), some (some true), some none] := by
  decide +kernel

theorem breaker_guards_sample : ∃ tr : List callers.Event,
    (∃ pre ev post, tr = pre ++ ev :: post ∧
      ¬ Admits 1 60 (told pre) (ev.choice : Choice).reading) ∧
    ∃ pre ev post, tr = pre ++ ev :: post ∧ LetThrough 1 60 pre ev := by
  obtain ⟨d, hd, hseen⟩ := Option.map_eq_some_iff.mp sample_play
  have hr := System.play_reaches _ starts_sampleMoves hd
  refine ⟨d.shared.2, ?_, ?_⟩
  · have hmem : some (some false) ∈ d.shared.2.map mark := by
      rw [hseen]
      decide
    obtain ⟨ev, hev, hmark⟩ := List.mem_map.mp hmem
    obtain ⟨pre, post, hsplit⟩ := List.append_of_mem hev
    obtain ⟨t, o, ch, before, x, after⟩ := ev
    cases o with
    | allow =>
      cases hmark
      refine ⟨pre, _, post, hsplit, fun hadmits => ?_⟩
      exact Bool.false_ne_true (((breaker_guards hr hsplit).1 false rfl).mpr hadmits)
    | _ => cases hmark
  · have hmem : some none ∈ d.shared.2.map mark := by
      rw [hseen]
      decide
    obtain ⟨ev, hev, hmark⟩ := List.mem_map.mp hmem
    obtain ⟨pre, post, hsplit⟩ := List.append_of_mem hev
    obtain ⟨t, o, ch, before, x, after⟩ := ev
    cases o with
    | func => exact ⟨pre, _, post, hsplit, (breaker_guards hr hsplit).2 rfl⟩
    | _ => cases hmark

end Retry
end L1Agent
