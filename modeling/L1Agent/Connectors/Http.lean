import L1Agent.Library.Json
import L1Agent.Library.Worlds

/-! # The HTTP client of the connectors (`connectors/sdk/http.py`)

One loop handles retries, the wait before them, and a credential that was refused.  It goes round
again for two reasons only: a 401, once, and a status that means "try again" while attempts are
left.  An exception of the transport, a timeout among them, ends it.

`request_resends` says what follows of one request, however it is answered: how often it is sent,
after which answers, and that one which is no read is sent again after a refused credential
only.  The induction is on the sends that are left (`length_answers_le`).
-/
namespace L1Agent
namespace Http
open Interleaving

/-- `RETRY_STATUSES` -/
def retryStatuses : List Nat := [429, 502, 503, 504]

inductive Exn where
  /-- `ConnectorHttpError` -/
  | connector (method path : String) (status : Nat) (message detail : String)
  /-- Whatever the transport, the credential or the body raises. -/
  | raised (name : String)

/-- What is given to `session.request`. -/
structure Sent where
  method : String
  url : String
  params : Option (List (String × String))
  json : Option Json
  headers : List (String × String)

/-- The answer to a request; to read its body as JSON may fail. -/
structure Raw where
  status : Nat
  headers : List (String × String)
  json : Except Exn Json

inductive Op where
  /-- `self._auth.headers(session)` -/
  | authHeaders
  /-- `self._auth.rejected()` -/
  | authRejected
  | send (sent : Sent)
  /-- `asyncio.sleep(self._delay(attempt, retry_after))` -/
  | sleep (attempt : Nat) (retryAfter : String)

abbrev Op.Ans : Op → Type
  | .authHeaders => Except Exn (List (String × String))
  | .authRejected => Except Exn Unit
  | .send _ => Except Exn Raw
  | .sleep _ _ => Except Exn Unit

abbrev Calls : Signature := ⟨Op, Op.Ans⟩

structure Response where
  status : Nat
  headers : List (String × String)
  body : Json

/-- The client's settings; `retries` as it was configured. -/
structure HttpClient where
  baseUrl : String
  retries : Int
  errorParser : Option (Json → Except Exn (String × String))

structure Request where
  method : String
  path : String
  params : Option (List (String × String)) := none
  json : Option Json := none

/-- `method.upper() == "GET"` -/
def Request.IsRead (r : Request) : Prop := r.method.toUpper = "GET"

instance (r : Request) : Decidable r.IsRead := inferInstanceAs (Decidable (_ = _))

namespace HttpClient
variable (c : HttpClient) (r : Request)

/-- `max(0, retries)` -/
def allowed : Nat := (max 0 c.retries).toNat

/-- Only a read is safe to send twice after a transient failure. -/
def attempts : Nat := 1 + if r.IsRead then c.allowed else 0

/-- What is sent, with the headers of the credential. -/
def sent (auth : List (String × String)) : Sent where
  method := r.method
  url := c.baseUrl ++ r.path
  params := r.params
  json := r.json
  headers := ("Accept", "application/json") :: auth ++
    if r.json.isSome then [("Content-Type", "application/json")] else []

/-- The message and the detail; an error page that is no JSON has none. -/
def said (raw : Raw) : String × String :=
  match raw.json, c.errorParser with
  | .ok parsed, some parser => (parser parsed).toOption.getD ("", "")
  | _, _ => ("", "")

/-- The end of a request that was answered below 400. -/
def succeeded (raw : Raw) : Program Calls Exn Response :=
  (if raw.status ≠ 204 then Program.ofExcept raw.json else pure .null).bind fun body =>
    pure ⟨raw.status, raw.headers, body⟩

/-- The loop, after `attempt` sends. -/
def loop (attempt : Nat) (credentialRetried : Bool) : Program Calls Exn Response :=
  .call .authHeaders fun auth => (Program.ofExcept auth).bind fun auth =>
  .call (.send (c.sent r auth)) fun raw => (Program.ofExcept raw).bind fun raw =>
  if raw.status < 400 then succeeded raw
  else if h : raw.status = 401 ∧ credentialRetried = false then
    -- The request was not processed, so this is safe for writes too.
    .call .authRejected fun done => (Program.ofExcept done).bind fun _ => loop (attempt + 1) true
  else if h : raw.status ∈ retryStatuses ∧ attempt + 1 < c.attempts r then
    .call (.sleep (attempt + 1) ((raw.headers.lookup "Retry-After").getD "")) fun done =>
      (Program.ofExcept done).bind fun _ => loop (attempt + 1) credentialRetried
  else .raise (.connector r.method r.path raw.status (c.said raw).1 (c.said raw).2)
termination_by c.attempts r - attempt + (if credentialRetried then 0 else 1)
decreasing_by
  · rw [h.2]
    simp only [reduceIte, Bool.false_eq_true]
    omega
  · omega

/-- `request` -/
def request : Program Calls Exn Response := c.loop r 0 false

end HttpClient

/-! ## What is sent -/

/-- The answers to the sends, in their order. -/
def answers (done : List Calls.Done) : List (Except Exn Raw) :=
  done.filterMap fun d => match d with
    | ⟨.send _, answer⟩ => some answer
    | ⟨.authHeaders, _⟩ => none
    | ⟨.authRejected, _⟩ => none
    | ⟨.sleep _ _, _⟩ => none

section
variable {w : Calls.World} {past : List Calls.Done}

/-- An answered send comes first; an exception before it leaves nothing. -/
theorem answers_call {o : Op} {α : Type} (k : Op.Ans o → Program Calls Exn α) :
    answers ((Program.call (E := Calls) o k).doneIn w past) =
      answers [⟨o, w past o⟩] ++
        answers ((k (w past o)).doneIn w (past ++ [⟨o, w past o⟩])) := by
  unfold answers
  rw [← List.filterMap_append]
  rfl

theorem answers_succeeded (raw : Raw) :
    answers ((HttpClient.succeeded raw).doneIn w past) = [] := by
  unfold HttpClient.succeeded
  by_cases hbody : raw.status ≠ 204
  · rw [if_pos hbody]
    cases raw.json <;> rfl
  · rw [if_neg hbody]
    rfl

/-- The loop goes round again: after a 401, the first one, or to read again what may be read. -/
def HttpClient.Again (c : HttpClient) (r : Request) (attempt : Nat) (before after : Bool)
    (status : Nat) : Prop :=
  (status = 401 ∧ before = false ∧ after = true) ∨
    (status ∈ retryStatuses ∧ attempt + 1 < c.attempts r ∧ after = before)

/-- What one round of the loop leaves of answers: none, the last one, or one before the rounds that
follow. -/
inductive Round (w : Calls.World) (c : HttpClient) (r : Request) (attempt : Nat)
    (credentialRetried : Bool) : List (Except Exn Raw) → Prop
  | unsent : Round w c r attempt credentialRetried []
  | last (a : Except Exn Raw) : Round w c r attempt credentialRetried [a]
  | again (raw : Raw) (past : List Calls.Done) (after : Bool)
      (h : c.Again r attempt credentialRetried after raw.status) :
      Round w c r attempt credentialRetried
        (.ok raw :: answers ((c.loop r (attempt + 1) after).doneIn w past))

/-- Before the loop goes round again something may be raised. -/
theorem Round.of_again {c : HttpClient} {r : Request} {attempt : Nat}
    {credentialRetried after : Bool} {raw : Raw}
    (h : c.Again r attempt credentialRetried after raw.status) (done : Except Exn Unit) :
    Round w c r attempt credentialRetried
      (.ok raw :: answers (((Program.ofExcept done).bind fun _ =>
        c.loop r (attempt + 1) after).doneIn w past)) := by
  cases done with
  | error e => exact .last (.ok raw)
  | ok _ => exact .again raw past after h

/-- **One round of the loop.** -/
theorem round_loop (c : HttpClient) (r : Request) (attempt : Nat) (credentialRetried : Bool) :
    Round w c r attempt credentialRetried
      (answers ((c.loop r attempt credentialRetried).doneIn w past)) := by
  rw [HttpClient.loop, answers_call]
  generalize past ++ _ = past₁
  rcases w past Op.authHeaders with e | auth
  · exact .unsent
  rw [Program.ofExcept, Program.bind_ret, answers_call]
  generalize past₁ ++ _ = past₂
  rcases w past₁ (Op.send (c.sent r auth)) with e | raw
  · exact .last (.error e)
  rw [Program.ofExcept, Program.bind_ret]
  by_cases hbelow : raw.status < 400
  · rw [if_pos hbelow, answers_succeeded]
    exact .last (.ok raw)
  rw [if_neg hbelow]
  by_cases hcredential : raw.status = 401 ∧ credentialRetried = false
  · rw [dif_pos hcredential, answers_call]
    exact Round.of_again (.inl ⟨hcredential.1, hcredential.2, rfl⟩) _
  rw [dif_neg hcredential]
  by_cases hretry : raw.status ∈ retryStatuses ∧ attempt + 1 < c.attempts r
  · rw [dif_pos hretry, answers_call]
    exact Round.of_again (.inr ⟨hretry.1, hretry.2, rfl⟩) _
  · rw [dif_neg hretry]
    exact .last (.ok raw)

end

/-- The sends that a request may still make. -/
def HttpClient.left (c : HttpClient) (r : Request) (attempt : Nat) (credentialRetried : Bool) :
    Nat :=
  max 1 (c.attempts r - attempt) + if credentialRetried then 0 else 1

/-- **The loop ends** after so many sends: to go round again takes one of them. -/
theorem length_answers_le (w : Calls.World) (c : HttpClient) (r : Request) (attempt : Nat)
    (credentialRetried : Bool) (past : List Calls.Done) :
    (answers ((c.loop r attempt credentialRetried).doneIn w past)).length ≤
      c.left r attempt credentialRetried := by
  induction hn : c.left r attempt credentialRetried
    using Nat.strongRecOn generalizing attempt credentialRetried past with
  | ind n ih =>
    subst hn
    have hpos : 1 ≤ c.left r attempt credentialRetried := by
      unfold HttpClient.left
      omega
    have hround := @round_loop w past c r attempt credentialRetried
    generalize answers _ = sent at hround
    cases hround with
    | unsent => exact Nat.zero_le _
    | last a => exact hpos
    | again raw past' after hagain =>
      have hless : c.left r (attempt + 1) after + 1 ≤ c.left r attempt credentialRetried := by
        unfold HttpClient.left
        rcases hagain with ⟨-, rfl, rfl⟩ | ⟨-, hattempt, rfl⟩
        · simp only [reduceIte, Bool.false_eq_true]
          omega
        · omega
      have hrest := ih _ hless (attempt + 1) after past' rfl
      rw [List.length_cons]
      omega

/-- **A request is sent again safely, and stops.**  However it is answered, it is sent at most once
for each retry that is configured, once for a credential that was refused, and the first time.  What
is no read is sent twice at most, and the second time only after a 401. -/
theorem request_resends (w : Calls.World) (c : HttpClient) (r : Request) :
    (answers ((c.request r).doneIn w [])).length ≤ c.allowed + 1 + 1 ∧
      (¬r.IsRead →
        (answers ((c.request r).doneIn w [])).length ≤ 2 ∧
          ∀ first second rest,
            answers ((c.request r).doneIn w []) = first :: second :: rest →
              ∃ raw, first = .ok raw ∧ raw.status = 401) := by
  have hlength := length_answers_le w c r 0 false []
  have hleft : c.left r 0 false = c.attempts r + 1 := by
    unfold HttpClient.left HttpClient.attempts
    simp only [reduceIte, Bool.false_eq_true]
    omega
  rw [hleft] at hlength
  unfold HttpClient.request
  refine ⟨?_, fun hread => ?_⟩
  · have hattempts : c.attempts r ≤ c.allowed + 1 := by
      unfold HttpClient.attempts
      split <;> omega
    omega
  · have hone : c.attempts r = 1 := by
      unfold HttpClient.attempts
      rw [if_neg hread]
    refine ⟨by omega, fun first second rest hsent => ?_⟩
    have hround := @round_loop w [] c r 0 false
    rw [hsent] at hround
    generalize hlist : first :: second :: rest = sent at hround
    cases hround with
    | unsent => cases hlist
    | last a => cases hlist
    | again raw past after hagain =>
      obtain ⟨rfl, -⟩ := List.cons.inj hlist
      rcases hagain with ⟨hstatus, -, -⟩ | ⟨-, hattempt, -⟩
      · exact ⟨raw, rfl, hstatus⟩
      · omega

end Http
end L1Agent
