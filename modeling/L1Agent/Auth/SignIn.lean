import L1Agent.Auth.Store
import L1Agent.Library.Past
import L1Agent.Library.PyText
import L1Agent.Library.Literals

/-! # Signing in, and access to the routes (`api/access.py`, `api/app.py`, `auth/oidc.py`)

A browser signs in through an identity provider or with the break-glass password, and is given a
cookie; `authorize` runs before the handler of every route.  The provider, the clock and the
random texts are the environment's.  What is drawn within a transaction is drawn before it here.
The webhook and the runners' routes are in `Api/Access`.

What runs is what `Serves` says: a request to a route, the four routes of the sign-in with an
identity provider, the break-glass sign-in, and the commands with which an operator makes a token,
revokes one, or changes who has a role.  The handler of a route is one operation, with what
`handler` does of it here: a logout and the routes of the API tokens are carried out.
-/
namespace L1Agent
namespace Auth
open Interleaving

inductive Exn where
  | denied (status : Nat) (error reason : String)
  /-- `SignInError` -/
  | signIn (message : String)
  | valueError (message : String)
  /-- `asyncio.CancelledError` -/
  | cancelled
  /-- Any other exception, by the name of its type. -/
  | other (name : String)
  deriving DecidableEq, Repr

/-- How an operation fails. -/
inductive Fault where
  | cancelled
  | other (name : String)
  deriving DecidableEq, Repr

def Fault.exn : Fault → Exn
  | cancelled => .cancelled
  | other name => .other name

/-! ## Requests -/

/-- The declarations of routes for people and tokens. -/
inductive Access where
  | isPublic
  | authenticated
  | permission (permission : Permission)
  deriving DecidableEq, Repr

/-- The routes that write what is read here, and any other one with its declaration. -/
inductive Route where
  | logout
  | createToken (name : String) (permissions : List String) (days : Int)
  | revokeToken (id : Nat)
  | setMapping (group : String) (role : Role) (grant : Bool)
  | other (access : Option Access)
  deriving DecidableEq

/-- `access_of` -/
def Route.access : Route → Option Access
  | logout => some .authenticated
  | createToken .. | revokeToken _ => some (.permission .tokensManage)
  | setMapping .. => some (.permission .rolesManage)
  | other access => access

structure Request where
  method : String
  path : String
  route : Route
  authorization : Option String := none
  cookie : Option String := none
  /-- The header of `CSRF_HEADER`, or "". -/
  csrf : String := ""
  deriving DecidableEq

/-! ## Operations -/

inductive Op where
  | utcnow
  | uuid4
  /-- `secrets.token_urlsafe(32)` -/
  | token
  | db (c : DbCall)
  /-- `OidcClient._load` -/
  | load (force : Bool)
  /-- The provider's keys, as they were loaded last. -/
  | keys
  /-- The answer of the token endpoint: its status, and its body where that is JSON. -/
  | postToken (code verifier : String)
  /-- `login_redirect`: the id of the request. -/
  | samlRequest (state : String)
  /-- The browser is given the cookie of its session. -/
  | signedIn (cookie : String) (sessionId : Nat)
  /-- The handler of a route begins. -/
  | handle (request : Request) (principal : Option Principal)

abbrev Op.Ans : Op → Type
  | utcnow => Rat
  | uuid4 => Nat
  | token => String
  | db c => Except Fault c.Val
  | load _ => Except Exn Unit
  | keys => List Json
  | postToken .. => Except Fault (Int × Option Json)
  | samlRequest _ => Except Fault String
  | signedIn .. | handle .. => Unit

def Calls : Signature := ⟨Op, Op.Ans⟩

abbrev Prog (α : Type) := Program Calls Exn α

/-- An answer, or the failure that is raised. -/
def orRaise {α : Type} (answer : Except Fault α) : Prog α :=
  Program.ofExcept (answer.mapError Fault.exn)

def askDb (c : DbCall) : Prog c.Val := (Program.op (E := Calls) (.db c)).bind orRaise

def utcnow : Prog Rat := Program.op (E := Calls) .utcnow
def uuid4 : Prog Nat := Program.op (E := Calls) .uuid4
def token : Prog String := Program.op (E := Calls) .token

/-- How a token is found not to verify: by `PyJWTError`, or by another exception. -/
inductive JwtError where
  | pyJwt (name : String)
  | other (name : String)
  deriving DecidableEq, Repr

/-- The settings of `OidcClient`, and what the library computes. -/
structure Oidc where
  issuer : String
  groupsClaim : String
  /-- `jwt.get_unverified_header` -/
  header : String → Option Json
  /-- `jwt.decode`, under a key and an algorithm, for this client and issuer. -/
  decode : String → Json → String → Except JwtError Json

/-- What a SAML response says. -/
structure Identity where
  subject : String
  email : String
  name : String
  groups : List String
  deriving DecidableEq

structure Saml where
  idpEntityId : String
  /-- `process`, for the id of a request. -/
  process : String → String → Except Exn Identity

/-- The deployment: its settings, and what the libraries compute. -/
structure Site where
  tenantId : String
  builtins : Builtins
  /-- `tenant_id.hex` -/
  hex : String → String
  /-- `_tenant_of` -/
  tenantOf : String → Option String
  sha256 : String → String
  uuidText : Nat → String
  sessionHours : Int := 8
  sessionIdleMinutes : Int := 30
  demoOpen : Bool := false
  oidc : Option Oidc := none
  saml : Option Saml := none
  breakGlassPasswordHash : String := ""
  /-- `breakglass.verify_password` -/
  verifyPassword : String → String → Bool

variable (site : Site)

/-! ## The identity provider -/

/-- `ALLOWED_ALGORITHMS` -/
def allowedAlgorithms : List String :=
  ["RS256", "RS384", "RS512", "PS256", "PS384", "PS512", "ES256", "ES384"]

def load (force : Bool) : Prog Unit :=
  (Program.op (E := Calls) (.load force)).bind fun (r : Except Exn Unit) => Program.ofExcept r

/-- `find`, among the keys that are loaded. -/
def findKey (kid : Json) (keys : List Json) : Except Exn (Option Json) :=
  if keys.any fun k => !k.isObj then .error (.other "AttributeError")
  else
    let usable := keys.filter fun k => k.getD "use" (.str "sig") = .str "sig"
    .ok (if kid = .null then (if usable.length = 1 then usable.head? else none)
      else usable.find? fun k => k.getD "kid" .null = kid)

/-- `_key_for` -/
def keyFor (kid : Json) : Prog Json := do
  let keys ← Program.op (E := Calls) .keys
  let key ← Program.ofExcept (findKey kid keys)
  match key with
  | some key => pure key
  | none => do
    load true
    let keys ← Program.op (E := Calls) .keys
    let key ← Program.ofExcept (findKey kid keys)
    match key with
    | some key => pure key
    | none =>
      throw (.signIn "the ID token is signed with a key the provider does not publish")

/-- What the library finds in a token, or the exception that is raised for it. -/
def Oidc.claims (oidc : Oidc) (idToken : String) (jwk : Json) (algorithm : String) :
    Except Exn Json :=
  match oidc.decode idToken jwk algorithm with
  | .ok claims => .ok claims
  | .error (.pyJwt name) => .error (.signIn ("the ID token did not verify: " ++ name))
  | .error (.other name) => .error (.other name)

/-- `verify_id_token` -/
def verifyIdToken (oidc : Oidc) (idToken nonce : String) : Prog Json := do
  load false
  match oidc.header idToken with
  | none => throw (.signIn "the ID token is not a JWT")
  | some header =>
    match header.getD "alg" .null with
    | .str algorithm =>
      if algorithm ∉ allowedAlgorithms then
        throw (.signIn ("the ID token uses an algorithm that is not accepted: " ++ algorithm))
      else do
        let jwk ← keyFor (header.getD "kid" .null)
        let claims ← Program.ofExcept (oidc.claims idToken jwk algorithm)
        if nonce = "" ∨ claims.getD "nonce" .null ≠ .str nonce then
          throw (.signIn "the ID token does not carry the nonce issued for this sign-in")
        else pure claims
    | other => throw (.signIn ("the ID token uses an algorithm that is not accepted: " ++
        site.builtins.str other))

/-- `exchange` -/
def exchange (oidc : Oidc) (code verifier nonce : String) : Prog Json := do
  load false
  let answer ← (Program.op (E := Calls) (.postToken code verifier)).bind orRaise
  if answer.1 ≠ 200 then
    throw (.signIn ("token endpoint answered " ++ site.builtins.str (.int answer.1)))
  else match answer.2 with
    | none => throw (.other "JSONDecodeError")
    | some body =>
      if !body.isObj then throw (.other "AttributeError")
      else match body.getD "id_token" .null with
        | .str idToken => verifyIdToken site oidc idToken nonce
        | _ => throw (.signIn "token response has no id_token")

/-- `groups` -/
def Oidc.groups (oidc : Oidc) (builtins : Builtins) (claims : Json) : List String :=
  match claims.getD oidc.groupsClaim (.arr []) with
  | .str s => [s]
  | .arr items => items.filterMap fun
    | .str s => some s
    | .int n => some (builtins.str (.int n))
    | .bool b => some (builtins.str (.bool b))
    | _ => none
  | _ => []

/-! ## Sign-in -/

/-- `SIGN_IN` -/
def signInActor : Audit.Actor := ⟨"system", "sign-in"⟩

/-- `refuse_sign_in` -/
def refuseSignIn (method reason : String) : Prog Unit :=
  askDb (.append
    { tenantId := site.tenantId, actor := signInActor, eventType := "auth.login_failed"
      payload := .obj [("method", .str method), ("reason", .str reason)] })

/-- `roles_for_groups` -/
def rolesForGroups (groups : List String) : Prog (List String) :=
  let wanted := groups.take 500
  if wanted.isEmpty then pure []
  else do
    let roles : List String ← askDb (.rolesForGroups site.tenantId wanted)
    pure (validRoles roles)

/-- What `establish_session` is given. -/
structure SignIn where
  method : String
  issuer : String
  subject : String
  email : String
  name : String
  groups : List String
  roles : List String := []
  hours : Int := 0
  deriving DecidableEq

/-- The row that `create_session` inserts. -/
def newSession (i : SignIn) (granted : List String) (id : Nat) (cookie csrf : String) (now : Rat) :
    Session :=
  { id, tenantId := site.tenantId, userId := 0, tokenHash := site.sha256 cookie, csrfToken := csrf
    roles := validRoles granted, authMethod := i.method, createdAt := now, lastSeenAt := now
    expiresAt := now + 3600 * (if i.hours = 0 then site.sessionHours else i.hours) }

/-- `establish_session`, once there are roles. -/
def openSession (i : SignIn) (granted : List String) : Prog Unit := do
  let userId ← uuid4
  let secret ← token
  let sessionId ← uuid4
  let now ← utcnow
  let csrf ← token
  let cookie := site.hex site.tenantId ++ "." ++ secret
  askDb (.openSession
    { id := userId, tenantId := site.tenantId, issuer := i.issuer, subject := i.subject
      email := i.email, displayName := i.name }
    (newSession site i granted sessionId cookie csrf now)
    { tenantId := site.tenantId, actor := ⟨"user", i.issuer ++ "|" ++ i.subject⟩
      eventType := "auth.login"
      payload := .obj [("method", .str i.method), ("roles", .arr (granted.map .str)),
        ("session_id", .str (site.uuidText sessionId))] })
  Program.op (E := Calls) (.signedIn cookie sessionId)

/-- `establish_session` -/
def establishSession (i : SignIn) : Prog Unit := do
  let granted ← if i.roles.isEmpty then rolesForGroups site i.groups else pure i.roles
  if granted.isEmpty then
    refuseSignIn site i.method ("no role is mapped to any group of " ++ i.subject)
  else openSession site i granted

/-- `create_login_state`, with the state, the nonce and the verifier. -/
def createLoginState : Prog (String × String × String) := do
  let state ← token
  let nonce ← token
  let verifier ← token
  let now ← utcnow
  let id ← uuid4
  askDb (.createLoginState now
    { id, tenantId := site.tenantId, stateHash := site.sha256 state, nonce
      codeVerifier := verifier, expiresAt := now + 10 * 60 })
  pure (state, nonce, verifier)

/-- `consume_login_state`, where a state is presented. -/
def consumeLoginState (state : String) : Prog (Option (String × String)) :=
  if state = "" then pure none
  else do
    let now ← utcnow
    askDb (.consumeLoginState now site.tenantId (site.sha256 state))

/-- `oidc_login` -/
def oidcLogin : Prog Unit :=
  match site.oidc with
  | none => pure ()
  | some _ => do
    let _ ← createLoginState site
    load false

/-- The sign-in of verified claims. -/
def Oidc.signIn (oidc : Oidc) (builtins : Builtins) (sub claims : Json) : SignIn :=
  { method := "oidc", issuer := oidc.issuer, subject := builtins.str sub
    email := builtins.str (claims.getD "email" (.str ""))
    name := builtins.str (claims.getD "name" (.str ""))
    groups := oidc.groups builtins claims }

/-- The sign-in of what a SAML response says. -/
def Saml.signIn (saml : Saml) (identity : Identity) : SignIn :=
  { method := "saml", issuer := saml.idpEntityId, subject := identity.subject
    email := identity.email, name := identity.name, groups := identity.groups }

/-- The sign-in of the break-glass account. -/
def breakGlassSignIn : SignIn :=
  { method := "break_glass", issuer := "local", subject := "break-glass", email := ""
    name := "Break-glass administrator", groups := [], roles := [Role.tenantAdmin.value]
    hours := 1 }

/-- `oidc_callback` -/
def oidcCallback (code state : String) : Prog Unit :=
  match site.oidc with
  | none => pure ()
  | some oidc => do
    let pending ← consumeLoginState site state
    match pending with
    | none => refuseSignIn site "oidc" "unknown, expired or reused state"
    | some (nonce, verifier) =>
      if code = "" then refuseSignIn site "oidc" "unknown, expired or reused state"
      else do
        let claims ← (exchange site oidc code verifier nonce).attempt
        match claims with
        | .error (.signIn message) => refuseSignIn site "oidc" message
        | .error .cancelled => throw .cancelled
        | .error (.other name) => refuseSignIn site "oidc" ("provider error: " ++ name)
        | .error (.valueError _) => refuseSignIn site "oidc" "provider error: ValueError"
        | .error (.denied ..) => refuseSignIn site "oidc" "provider error: Denied"
        | .ok claims => match claims.get? "sub" with
          | none => throw (.other "KeyError")
          | some sub => establishSession site (oidc.signIn site.builtins sub claims)

/-- `saml_login` -/
def samlLogin : Prog Unit :=
  match site.saml with
  | none => pure ()
  | some _ => do
    let pending ← createLoginState site
    let requestId ← (Program.op (E := Calls) (.samlRequest pending.1)).bind orRaise
    askDb (.bindLoginState site.tenantId (site.sha256 pending.1) requestId)

/-- `saml_acs` -/
def samlAcs (relayState samlResponse : String) : Prog Unit :=
  match site.saml with
  | none => pure ()
  | some saml => do
    let pending ← consumeLoginState site relayState
    match pending with
    | none => refuseSignIn site "saml" "no sign-in was started for this response"
    | some (requestId, _) =>
      if samlResponse = "" then refuseSignIn site "saml" "no sign-in was started for this response"
      else match saml.process samlResponse requestId with
        | .error (.signIn message) => refuseSignIn site "saml" message
        | .error e => throw e
        | .ok identity => establishSession site (saml.signIn identity)

/-- `break_glass` -/
def breakGlass (password : String) : Prog Unit :=
  if site.breakGlassPasswordHash = "" then pure ()
  else if !site.verifyPassword password site.breakGlassPasswordHash then
    refuseSignIn site "break_glass" "wrong password"
  else do
    askDb (.append
      { tenantId := site.tenantId, actor := ⟨"user", "local|break-glass"⟩
        eventType := "auth.break_glass_used" })
    establishSession site breakGlassSignIn

/-! ## Credentials -/

def tokenPrefix : String := "l1t_"

/-- The principal of a session. -/
def sessionPrincipal (s : Session) (u : User) (tenantId : String) : Principal :=
  { tenantId, kind := .user, id := u.issuer ++ "|" ++ u.subject
    display := if u.displayName = "" then u.subject else u.displayName
    roles := validRoles s.roles, permissions := permissionsFor (validRoles s.roles)
    sessionId := some s.id, csrfToken := s.csrfToken }

/-- `load_session` -/
def loadSession (cookie : String) : Prog (Option Principal) :=
  match site.tenantOf (partition '.' cookie).1 with
  | none => pure none
  | some tenantId =>
    if (partition '.' cookie).2.2 = "" then pure none
    else do
      let now ← utcnow
      let row : Option (Session × User) ← askDb
        (.findSession tenantId (site.sha256 cookie) now (60 * site.sessionIdleMinutes))
      match row with
      | none => pure none
      | some (s, u) => do
        if 60 < now - s.lastSeenAt then askDb (.touchSession s.id now) else pure ()
        pure (some (sessionPrincipal s u tenantId))

/-- The principal of a token. -/
def tokenPrincipal (t : ApiToken) (tenantId : String) : Principal :=
  { tenantId, kind := .token, id := "token:" ++ site.uuidText t.id, display := t.name, roles := []
    permissions := permissionsNamed t.permissions }

/-- Whether the last use of a token is to be noted. -/
def ApiToken.stale (t : ApiToken) (now : Rat) : Bool :=
  match t.lastUsedAt with
  | none => true
  | some used => 60 < now - used

/-- `load_api_token` -/
def loadApiToken (presented : String) : Prog (Option Principal) :=
  if !presented.startsWith tokenPrefix then pure none
  else
    let parts := partition '_' (presented.drop tokenPrefix.length).toString
    match site.tenantOf parts.1 with
    | none => pure none
    | some tenantId =>
      if parts.2.2 = "" then pure none
      else do
        let now ← utcnow
        let row : Option ApiToken ← askDb (.findToken tenantId (site.sha256 presented) now)
        match row with
        | none => pure none
        | some t => do
          if t.stale now then askDb (.touchToken t.id now) else pure ()
          pure (some (tokenPrincipal site t tenantId))

/-- `demo_principal` -/
def demoPrincipal : Principal :=
  { tenantId := site.tenantId, kind := .demo, id := "demo", display := "Demo user"
    roles := (Role.all.map Role.value).insertionSort (· ≤ ·)
    permissions := permissionsFor (Role.all.map Role.value) }

/-- The text after "Bearer". -/
def bearer (header : String) : Option String :=
  let parts := partition ' ' header
  let presented := String.ofList (PyText.strip parts.2.2.toList)
  if parts.1.toList.map Char.toLower ≠ "bearer".toList ∨ presented = "" then none
  else some presented

/-- `authenticate` -/
def authenticate (request : Request) : Prog (Option Principal) :=
  match request.authorization with
  | some header => match bearer header with
    | none => pure none
    | some presented => loadApiToken site presented
  | none =>
    match request.cookie.filter (· ≠ "") with
    | some cookie => loadSession site cookie
    | none => pure (if site.demoOpen then some (demoPrincipal site) else none)

/-- `SAFE_METHODS` -/
def safeMethods : List String := ["GET", "HEAD", "OPTIONS"]

def denied {α : Type} (status : Nat) (error reason : String) : Prog α :=
  throw (.denied status error reason)

/-- The event of a request that is refused for want of a permission. -/
def deniedEntry (request : Request) (p : Principal) (permission : Permission) : Entry :=
  { tenantId := p.tenantId, actor := p.actor, eventType := "access.denied"
    payload := .obj [("method", .str request.method), ("path", .str request.path),
      ("permission", .str permission.value)] }

/-- The permission that a principal lacks for a route. -/
def missing (access : Access) (p : Principal) : Option Permission :=
  match access with
  | .permission permission => if p.has permission then none else some permission
  | _ => none

/-- The token that a page has to present: `hmac.compare_digest` takes ASCII only. -/
def checkCsrf (request : Request) (p : Principal) : Except Exn Unit :=
  if p.kind = .user ∧ request.method ∉ safeMethods then
    if request.csrf = "" then .error (.denied 403 "forbidden" "csrf")
    else if (Literals.ascii? request.csrf).isNone then .error (.other "TypeError")
    else if request.csrf ≠ p.csrfToken then .error (.denied 403 "forbidden" "csrf")
    else .ok ()
  else .ok ()

/-- `authorize` -/
def authorize (request : Request) : Prog (Option Principal) :=
  match request.route.access with
  | none => denied 403 "forbidden" "undeclared_route"
  | some .isPublic => pure none
  | some access => do
    let found ← authenticate site request
    match found with
    | none => denied 401 "unauthorized" "bad_credentials"
    | some p => match missing access p with
      | some permission => do
        askDb (.append (deniedEntry request p permission))
        denied 403 "forbidden" "missing_permission"
      | none => do
        Program.ofExcept (checkCsrf request p)
        pure (some p)

/-! ## Handlers -/

/-- `revoke_session` -/
def revokeSession (p : Principal) : Prog Unit :=
  match p.sessionId with
  | none => pure ()
  | some id => do
    let now ← utcnow
    askDb (.revokeSession p.tenantId id now
      { tenantId := p.tenantId, actor := p.actor, eventType := "auth.logout" })

/-- `MAX_TOKEN_DAYS` -/
def maxTokenDays : Int := 365

def strip (text : String) : String := String.ofList (PyText.strip text.toList)

/-- `create_api_token` -/
def createApiToken (tenantId name : String) (permissions : List String) (days : Int)
    (actor : Audit.Actor) : Prog Unit :=
  let granted := validPermissions permissions
  if granted.isEmpty ∨ ¬ permissions ⊆ granted then
    throw (.valueError "Name at least one permission, and only known permissions")
  else if ¬ (1 ≤ days ∧ days ≤ maxTokenDays) then
    throw (.valueError "A token must expire in 1 to 365 days")
  else if strip name = "" ∨ 100 < (strip name).length then
    throw (.valueError "Token name must be 1 to 100 characters")
  else do
    let secret ← token
    let id ← uuid4
    let now ← utcnow
    askDb (.createToken
      { id, tenantId, name := strip name
        tokenHash := site.sha256 (tokenPrefix ++ site.hex tenantId ++ "_" ++ secret)
        permissions := granted, createdBy := cut 200 actor.id, createdAt := now
        expiresAt := now + 86400 * days }
      { tenantId, actor, eventType := "token.created"
        payload := .obj [("token_id", .str (site.uuidText id)), ("name", .str (strip name)),
          ("permissions", .arr (granted.map .str)), ("days", .int days)] })

/-- `revoke_api_token` -/
def revokeApiToken (tenantId : String) (id : Nat) (actor : Audit.Actor) : Prog Unit := do
  let now ← utcnow
  let _ : Bool ← askDb (.revokeToken tenantId id now
    { tenantId, actor, eventType := "token.revoked"
      payload := .obj [("token_id", .str (site.uuidText id))] })
  pure ()

/-- `TOKEN_PERMISSIONS` -/
def tokenPermissions : List Permission := [.incidentsRead, .systemRead, .metricsRead, .auditRead]

/-- `set_role_mapping` -/
def setRoleMapping (tenantId group role : String) (actor : Audit.Actor) (grant : Bool) :
    Prog Unit :=
  if (validRoles [role]).isEmpty then throw (.valueError ("Unknown role: " ++ role))
  else if strip group = "" ∨ 300 < (strip group).length then
    throw (.valueError "Group name must be 1 to 300 characters")
  else do
    let _ : Bool ← askDb (.setMapping ⟨tenantId, strip group, role⟩ grant
      { tenantId, actor
        eventType := if grant then "roles.mapping_granted" else "roles.mapping_removed"
        payload := .obj [("group", .str (strip group)), ("role", .str role)] })
    pure ()

/-- What the handler of a route does with the tables. -/
def handler (route : Route) (p : Principal) : Prog Unit :=
  match route with
  | .logout => revokeSession p
  | .createToken name permissions days =>
    if ¬ permissions ⊆ tokenPermissions.map Permission.value then pure ()
    else createApiToken site p.tenantId name permissions days p.actor
  | .revokeToken id => revokeApiToken site p.tenantId id p.actor
  | .setMapping group role grant => setRoleMapping p.tenantId group role.value p.actor grant
  | .other _ => pure ()

/-- A request: `authorize`, and then the handler of its route. -/
def serve (request : Request) : Prog Unit := do
  let principal ← authorize site request
  Program.op (E := Calls) (.handle request principal)
  match principal with
  | none => pure ()
  | some p => handler site request.route p

/-- `CLI` -/
def cliActor : Audit.Actor := ⟨"system", "cli"⟩

/-! ## The system -/

structure State where
  tables : Tables := {}
  /-- The ids that have been given. -/
  issued : List Nat := []

/-- What the environment settles. -/
structure Choice where
  /-- The id that `uuid4` gives, which is not one that it has given. -/
  uuid : Nat := 0
  secret : String := ""
  reading : Rat := 0
  /-- What the identity provider, or the library for it, answers. -/
  loaded : Except Exn Unit := .ok ()
  keys : List Json := []
  posted : Except Fault (Int × Option Json) := .ok (200, none)
  requestId : Except Fault String := .ok ""
  /-- The transaction fails, although it may have taken effect. -/
  fault : Option Fault := none
  landed : Bool := false

/-- What a transaction answers and leaves. -/
def transact (c : DbCall) (ch : Choice) (s : State) : Except Fault c.Val × State :=
  match c.run s.tables with
  | none => (.error (ch.fault.getD (.other "IntegrityError")), s)
  | some (v, tables) => match ch.fault with
    | none => (.ok v, { s with tables })
    | some e => (.error e, if ch.landed then { s with tables } else s)

/-- What an operation answers and leaves. -/
def step (o : Op) (ch : Choice) (s : State) : Option (o.Ans × State) :=
  match o with
  | .utcnow => some (ch.reading, s)
  | .uuid4 =>
    if ch.uuid ∈ s.issued then none
    else some (ch.uuid, { s with issued := ch.uuid :: s.issued })
  | .token => some (ch.secret, s)
  | .db c => some (transact c ch s)
  | .load _ => some (ch.loaded, s)
  | .keys => some (ch.keys, s)
  | .postToken .. => some (ch.posted, s)
  | .samlRequest _ => some (ch.requestId, s)
  | .signedIn .. | .handle .. => some ((), s)

/-- What runs: requests, the sign-in routes and the operator's commands. -/
inductive Serves : Prog Unit → Prop where
  | request (request : Request) : Serves (serve site request)
  | oidcLogin : Serves (oidcLogin site)
  | oidcCallback (code state : String) : Serves (oidcCallback site code state)
  | samlLogin : Serves (samlLogin site)
  | samlAcs (relayState samlResponse : String) : Serves (samlAcs site relayState samlResponse)
  | breakGlass (password : String) : Serves (breakGlass site password)
  | cliToken (tenantId name : String) (permissions : List String) (days : Int) :
      Serves (createApiToken site tenantId name permissions days cliActor)
  | cliRevoke (tenantId : String) (id : Nat) : Serves (revokeApiToken site tenantId id cliActor)
  | cliRoles (tenantId group role : String) (grant : Bool) :
      Serves (setRoleMapping tenantId group role cliActor grant)

/-- A deployment that is sent any requests. -/
def service : System Calls Exn State where
  Choice := Choice
  run _ o ch s := step o ch s
  Entry := Serves site

end Auth
end L1Agent
