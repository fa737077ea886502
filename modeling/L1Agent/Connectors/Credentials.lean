import L1Agent.Connectors.Secrets
import L1Agent.Library.Segments
import Mathlib.Algebra.Order.Ring.Rat
import Mathlib.Logic.Function.Basic
import Mathlib.Order.WithBot

/-! # Credentials at work (`connectors/sdk/secrets.py`, `connectors/sdk/http.py`)

The requests of a connection take their credential from the cache of the resolver, or from the
backend where the cache has none that is fresh enough.  All of them run in one event loop and share
the cache, the flag that a credential was refused and, with OAuth, the access token.

A read of the backend, a request to the token endpoint and the request itself are operations, with
whatever else the event loop does in between; where nothing is awaited after an operation, it holds
the loop (`Op.holds`).  A lifetime that no float can hold leaves the new token with the old expiry,
and ends the request with the exception.
-/
namespace L1Agent
namespace Credentials
open Interleaving Secrets
open Http (Exn HttpClient)

/-- `TOKEN_EXPIRY_MARGIN_SECONDS` -/
def tokenExpiryMarginSeconds : Rat := 30

/-! ## Operations -/

/-- Where `fresh` comes from. -/
inductive Flag where
  | given (fresh : Bool)
  /-- `_fresh` of the client's credential -/
  | own (client : Nat)
  deriving DecidableEq

/-- What the lock of an OAuth credential gives way to. -/
inductive Held where
  /-- The token that is there; the lock is free again. -/
  | token (token : String)
  /-- There is none: it is to be fetched, with the flag as it was. -/
  | fetch (fresh : Bool)
  deriving DecidableEq

/-- The token endpoint's answer. -/
structure Posted where
  status : Nat
  body : Except Exn Json

inductive Op where
  /-- `_cache.get(key)`, and whether it may be used -/
  | lookUp (flag : Flag) (key : List Char)
  /-- `backend.read`, in a thread of its own -/
  | read (ref : SecretRef)
  | store (key : List Char) (value : String)
  | invalidate (key : Option (List Char))
  /-- `self._fresh = False` -/
  | lower (client : Nat)
  /-- `rejected` of a password or a token -/
  | reject (client : Nat)
  /-- `rejected` of OAuth -/
  | forget (client : Nat)
  /-- The lock is taken, and the token looked at. -/
  | lock (client : Nat)
  | post (client : Nat) (form : List (String × String))
  /-- The token is kept, and the lock given back.  Without a lifetime only the token is kept. -/
  | keep (client : Nat) (token : String) (lifetime : Option (WithTop Rat))
  | unlock (client : Nat)
  | send (client : Nat) (sent : Http.Sent)
  | sleep (attempt : Nat) (retryAfter : String)
  /-- A connector goes on with the values that it asked for. -/
  | use (client : Nat) (fresh : Bool) (values : List (String × String))

abbrev Op.Ans : Op → Type
  | lookUp .. => Option String
  | read _ => Except Exn String
  | store .. | invalidate _ | lower _ | reject _ | forget _ | keep .. | unlock _ | use .. => Unit
  | lock _ => Held
  | post .. => Except Exn Posted
  | send .. => Except Exn Http.Raw
  | sleep .. => Except Exn Unit

abbrev Calls : Signature := ⟨Op, Op.Ans⟩

abbrev Prog (α : Type) := Program Calls Exn α

def call (o : Op) : Prog o.Ans := Program.op (E := Calls) o

/-! ## Settings -/

/-- `ConnectionSecrets`, which holds no reference that could never resolve. -/
structure ConnectionSecrets where
  references : List (String × List Char)
  wellFormed : ∀ p ∈ references, ∃ ref, SecretRef.parse p.2 = .ok ref

/-- `ConnectionSecrets.__init__` -/
def ConnectionSecrets.make (references : List (String × List Char)) :
    Except String ConnectionSecrets :=
  let kept := references.filter fun p => p.2 ≠ []
  if h : ∀ p ∈ kept, (SecretRef.parse p.2).isOk = true then
    .ok ⟨kept, fun p hp => by
      have := h p hp
      cases hparse : SecretRef.parse p.2 with
      | ok ref => exact ⟨ref, rfl⟩
      | error e =>
        rw [hparse] at this
        cases this⟩
  else
    .error (((kept.filterMap fun p => match SecretRef.parse p.2 with
      | .error message => some message
      | .ok _ => none).head?).getD "")

/-- `OAuthClientCredentials` -/
structure OAuth where
  /-- `urlsplit(self._token_url).path` -/
  tokenPath : String
  clientId : String
  clientSecretSlot : String := "client_secret"
  username : String := ""
  passwordSlot : String := "password"
  scope : String := ""

inductive Auth where
  /-- `NoAuth` -/
  | none
  /-- `BasicAuth` -/
  | basic (username : String) (slot : String)
  /-- `BearerAuth` -/
  | bearer (slot : String) (scheme : String)
  | oauth (settings : OAuth)

/-- An `HttpClient` with its credential. -/
structure Client where
  http : HttpClient
  auth : Auth
  secrets : ConnectionSecrets

/-- What `float` raises. -/
inductive NoFloat where
  /-- `TypeError` or `ValueError` -/
  | unreadable
  /-- `OverflowError`: an integer that is too large -/
  | overflow
  deriving DecidableEq

structure Site where
  clients : Nat → Client
  /-- The backends of the resolver. -/
  configured : Backend → Bool
  /-- `ttl_seconds` -/
  ttl : Rat
  /-- `aiohttp.BasicAuth(username, password).encode()` -/
  encode : (username password : String) → String
  builtins : Builtins
  /-- `float(value)`, where `⊤` is one that the clock never reaches: infinite or not a number. -/
  float : Json → Except NoFloat (WithTop Rat)

variable (site : Site)

/-! ## Reading a reference -/

/-- `SecretResolver.get` -/
def get (flag : Flag) (reference : List Char) : Prog String :=
  match SecretRef.parse reference with
  | .error message => .raise (.raised message)
  | .ok ref =>
    (call (.lookUp flag ref.text)).bind fun (cached : Option String) =>
      match cached with
      | some value => .ret value
      | none =>
        if site.configured ref.backend then
          (call (.read ref)).bind fun (answer : Except Exn String) =>
            (Program.ofExcept answer).bind fun value =>
              (call (.store ref.text value)).bind fun _ => .ret value
        else
          .raise (.raised ("no '" ++ String.ofList ref.backend.value ++
            "' secrets backend is configured"))

/-- `SecretResolver.invalidate` -/
def invalidate (reference : Option (List Char)) : Prog Unit :=
  match reference with
  | none => call (.invalidate none)
  | some reference =>
    match SecretRef.parse reference with
    | .error message => .raise (.raised message)
    | .ok ref => call (.invalidate (some ref.text))

namespace ConnectionSecrets
variable (secrets : ConnectionSecrets)

/-- `ConnectionSecrets.get` -/
def get (flag : Flag) (slot : String) : Prog String :=
  match secrets.references.lookup slot with
  | none => .ret ""
  | some reference => Credentials.get site flag reference

/-- The values of these slots, one after the other. -/
def getEach (flag : Flag) : List String → Prog (List (String × String))
  | [] => .ret []
  | slot :: slots => (secrets.get site flag slot).bind fun value =>
    (getEach flag slots).bind fun values => .ret ((slot, value) :: values)

/-- `ConnectionSecrets.all` -/
def all (flag : Flag) : Prog (List (String × String)) :=
  secrets.getEach site flag (secrets.references.map (·.1))

end ConnectionSecrets

/-! ## Headers -/

/-- `{"Authorization": …}` -/
def authorization (value : String) : List (String × String) := [("Authorization", value)]

/-- The form that is posted to the token endpoint. -/
def OAuth.form (o : OAuth) (clientSecret : String) (password : Option String) :
    List (String × String) :=
  [("client_id", o.clientId), ("client_secret", clientSecret)] ++
    (match password with
    | some password =>
      [("grant_type", "password"), ("username", o.username), ("password", password)]
    | none => [("grant_type", "client_credentials")]) ++
    if o.scope ≠ "" then [("scope", o.scope)] else []

/-- `lifetime`, which is not set where `float` overflows: that exception is not caught. -/
def Site.lifetime (body : Json) : Option (WithTop Rat) :=
  match body.get? "expires_in" with
  | none => some (300 : Rat)
  | some value =>
    match site.float value with
    | .ok lifetime => some lifetime
    | .error .unreadable => some (300 : Rat)
    | .error .overflow => none

/-- The access token of the answer, and how long it can be used. -/
def OAuth.granted (o : OAuth) (posted : Posted) :
    Except Exn (String × Option (WithTop Rat)) :=
  if 400 ≤ posted.status then .error (.connector "POST" o.tokenPath posted.status "" "")
  else posted.body.bind fun body =>
    let token := (body.get? "access_token").getD .null
    if token.truthy then
      .ok (site.builtins.str token, site.lifetime body)
    else .error (.connector "POST" o.tokenPath 200 "the token endpoint returned no token" "")

/-- `OAuthClientCredentials._fetch` -/
def fetch (c : Nat) (o : OAuth) (fresh : Bool) : Prog String :=
  ((site.clients c).secrets.get site (.given fresh) o.clientSecretSlot).bind fun clientSecret =>
    (if o.username ≠ "" then
      ((site.clients c).secrets.get site (.given fresh) o.passwordSlot).bind fun password =>
        .ret (some password)
    else .ret none).bind fun password =>
      (call (.post c (o.form clientSecret password))).bind
        fun (answer : Except Exn Posted) => (Program.ofExcept answer).bind fun posted =>
          (Program.ofExcept (o.granted site posted)).bind fun granted =>
            (call (.keep c granted.1 granted.2)).bind fun _ =>
              if granted.2.isSome then .ret granted.1 else .raise (.raised "OverflowError")

/-- `headers` of the client's credential. -/
def headers (c : Nat) : Prog (List (String × String)) :=
  match (site.clients c).auth with
  | .none => .ret []
  | .basic username slot =>
    ((site.clients c).secrets.get site (.own c) slot).bind fun password =>
      (call (.lower c)).bind fun _ =>
        .ret (authorization (site.encode username password))
  | .bearer slot scheme =>
    ((site.clients c).secrets.get site (.own c) slot).bind fun token =>
      (call (.lower c)).bind fun _ =>
        .ret (authorization (scheme ++ " " ++ token))
  | .oauth o =>
    (call (.lock c)).bind fun (held : Held) =>
      match held with
      | .token token => .ret (authorization ("Bearer " ++ token))
      | .fetch fresh =>
        ((fetch site c o fresh).tryCatch fun e =>
          (call (.unlock c)).bind fun _ => .raise e).bind fun token =>
            .ret (authorization ("Bearer " ++ token))

/-- `rejected` of the client's credential. -/
def rejected (c : Nat) : Prog Unit :=
  match (site.clients c).auth with
  | .none => .ret ()
  | .oauth _ => call (.forget c)
  | _ => call (.reject c)

/-! ## Requests -/

/-- What the loop of a request calls, carried out. -/
def carriedOut (c : Nat) : ∀ o : Http.Op, Prog o.Ans
  | .authHeaders => (headers site c).attempt
  | .authRejected => (rejected site c).attempt
  | .send sent => call (.send c sent)
  | .sleep attempt retryAfter => call (.sleep attempt retryAfter)

/-- `HttpClient.request` -/
def request (c : Nat) (r : Http.Request) : Prog Http.Response :=
  ((site.clients c).http.request r).translate (carriedOut site c)

/-! ## The system -/

structure State where
  cache : List Char → Option (Rat × String) := fun _ => none
  fresh : Nat → Bool := fun _ => false
  token : Nat → String := fun _ => ""
  expiresAt : Nat → WithTop Rat := fun _ => (0 : Rat)
  locked : Nat → Bool := fun _ => false
  clock : Rat := 0

/-- What the environment settles. -/
structure Choice where
  /-- The instant at which the operation is carried out. -/
  reading : Rat := 0
  value : Except Exn String := .ok ""
  posted : Except Exn Posted := .ok ⟨200, .ok .null⟩
  raw : Except Exn Http.Raw := .ok ⟨200, [], .ok .null⟩
  slept : Except Exn Unit := .ok ()

namespace State
variable (s : State)

def flag : Flag → Bool
  | .given fresh => fresh
  | .own client => s.fresh client

/-- The value that the cache has, where it may be used. -/
def cached (flag : Flag) (key : List Char) (now : Rat) : Option String :=
  match s.cache key with
  | some (expires, value) => if s.flag flag = false ∧ now < expires then some value else none
  | none => none

/-- What the lock gives way to, when it is free. -/
def held (client : Nat) (now : Rat) : Held :=
  if s.token client ≠ "" ∧ (now : WithTop Rat) < s.expiresAt client then .token (s.token client)
  else .fetch (s.fresh client)

end State

/-- When a token expires that is kept at an instant. -/
def expiry (now : Rat) (lifetime : WithTop Rat) : WithTop Rat :=
  lifetime.map fun seconds => now + max (seconds - tokenExpiryMarginSeconds) 5

/-- What an operation answers and leaves at an instant; `none` while it has to wait. -/
def effect (o : Op) (ch : Choice) (s : State) : Option (o.Ans × State) :=
  match o with
  | .lookUp flag key => some (s.cached flag key ch.reading, s)
  | .read _ => some (ch.value, s)
  | .store key value =>
    some ((), { s with cache := Function.update s.cache key (some (ch.reading + site.ttl, value)) })
  | .invalidate none => some ((), { s with cache := fun _ => none })
  | .invalidate (some key) => some ((), { s with cache := Function.update s.cache key none })
  | .lower c => some ((), { s with fresh := Function.update s.fresh c false })
  | .reject c => some ((), { s with fresh := Function.update s.fresh c true })
  | .forget c => some ((), { s with
      token := Function.update s.token c ""
      fresh := Function.update s.fresh c true })
  | .lock c =>
    if s.locked c then none
    else match s.held c ch.reading with
      | .token token => some (.token token, s)
      | .fetch fresh => some (.fetch fresh, { s with
          locked := Function.update s.locked c true
          fresh := Function.update s.fresh c false })
  | .post _ _ => some (ch.posted, s)
  | .keep c token none => some ((), { s with token := Function.update s.token c token })
  | .keep c token (some lifetime) => some ((), { s with
      token := Function.update s.token c token
      expiresAt := Function.update s.expiresAt c (expiry ch.reading lifetime)
      locked := Function.update s.locked c false })
  | .unlock c => some ((), { s with locked := Function.update s.locked c false })
  | .send _ _ => some (ch.raw, s)
  | .sleep _ _ => some (ch.slept, s)
  | .use _ _ _ => some ((), s)

/-- What is started: requests, reads of a slot or of all of them, and cache entries that are
dropped. -/
inductive Starts : Prog Unit → Prop
  | request (c : Nat) (r : Http.Request) : Starts ((request site c r).bind fun _ => .ret ())
  | secret (c : Nat) (slot : String) (fresh : Bool) :
    Starts (((site.clients c).secrets.get site (.given fresh) slot).bind fun value =>
      call (.use c fresh [(slot, value)]))
  | all (c : Nat) (fresh : Bool) :
    Starts (((site.clients c).secrets.all site (.given fresh)).bind fun values =>
      call (.use c fresh values))
  | invalidate (reference : Option (List Char)) : Starts (invalidate reference)

/-- The operations one by one; the clock does not go back. -/
def operations : System Calls Exn State where
  Choice := Choice
  run _ o ch s :=
    if ch.reading < s.clock then none else effect site o ch { s with clock := ch.reading }
  Entry := Starts site

/-- Nothing is awaited between `rejected` of a password or a token and the `headers` after it, nor
between an overflow of `float` and the end of `async with`. -/
def Op.holds : Op → Bool
  | reject _ => true
  | keep _ _ none => true
  | _ => false

/-- Everything that uses the resolver, in one event loop. -/
def eventLoop : System Calls Exn (Option Nat × State) := (operations site).segmented Op.holds

end Credentials
end L1Agent
