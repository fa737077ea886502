import L1Agent.Actions.Store
import L1Agent.Audit.Log
import L1Agent.Auth.Permissions

/-! # Sessions, API tokens, users and role mappings (`auth/store.py`)

A credential is stored as its hash only, and looked up among the rows of the tenant that it names.
A transaction of the source is one `DbCall`; the look-up of a session or a token, and the note of
its use after that, are two.  Instants are in seconds.

Each transaction has the checks and the writes of its function, and returns what that function
does; the hash function is a parameter.
-/
namespace L1Agent
namespace Auth

inductive PrincipalKind where
  | user
  | token
  | demo
  deriving DecidableEq, Repr

/-- `Principal` -/
structure Principal where
  tenantId : String
  kind : PrincipalKind
  id : String
  display : String
  roles : List String
  permissions : List Permission
  sessionId : Option Nat := none
  csrfToken : String := ""
  deriving DecidableEq

/-- `Principal.actor` -/
def Principal.actor (p : Principal) : Audit.Actor :=
  ⟨if p.kind = .token then "token" else "user", p.id⟩

/-- `Principal.has` -/
def Principal.has (p : Principal) (permission : Permission) : Bool := permission ∈ p.permissions

/-- A row of `users`. -/
structure User where
  id : Nat
  tenantId : String
  issuer : String
  subject : String
  email : String
  displayName : String
  deriving DecidableEq

/-- A row of `sessions`. -/
structure Session where
  id : Nat
  tenantId : String
  userId : Nat
  tokenHash : String
  csrfToken : String
  roles : List String
  authMethod : String
  createdAt : Rat
  lastSeenAt : Rat
  expiresAt : Rat
  revokedAt : Option Rat := none
  deriving DecidableEq

/-- A row of `login_states`. -/
structure LoginState where
  id : Nat
  tenantId : String
  stateHash : String
  nonce : String
  codeVerifier : String
  expiresAt : Rat
  deriving DecidableEq

/-- A row of `api_tokens`. -/
structure ApiToken where
  id : Nat
  tenantId : String
  name : String
  tokenHash : String
  permissions : List String
  createdBy : String
  createdAt : Rat
  expiresAt : Rat
  revokedAt : Option Rat := none
  lastUsedAt : Option Rat := none
  deriving DecidableEq

/-- A row of `role_mappings`. -/
structure RoleMapping where
  tenantId : String
  idpGroup : String
  role : String
  deriving DecidableEq

/-- What is given to `audit.append`. -/
structure Entry where
  tenantId : String
  actor : Audit.Actor
  eventType : String
  payload : Json := .obj []
  deriving DecidableEq

structure Tables where
  users : List User := []
  sessions : List Session := []
  loginStates : List LoginState := []
  tokens : List ApiToken := []
  mappings : List RoleMapping := []
  audit : List Entry := []

/-- Whether a session is one that `load_session` takes. -/
def Session.live (s : Session) (tenantId tokenHash : String) (now idle : Rat) : Bool :=
  s.tenantId = tenantId ∧ s.tokenHash = tokenHash ∧ s.revokedAt = none ∧ now < s.expiresAt ∧
    now - idle < s.lastSeenAt

/-- Whether a token is one that `load_api_token` takes. -/
def ApiToken.live (t : ApiToken) (tenantId tokenHash : String) (now : Rat) : Bool :=
  t.tenantId = tenantId ∧ t.tokenHash = tokenHash ∧ t.revokedAt = none ∧ now < t.expiresAt

/-- Whether a state is one that `consume_login_state` takes. -/
def LoginState.usable (l : LoginState) (tenantId stateHash : String) (now : Rat) : Bool :=
  l.tenantId = tenantId ∧ l.stateHash = stateHash ∧ now < l.expiresAt

/-- The transactions. -/
inductive DbCall where
  /-- `create_login_state` -/
  | createLoginState (now : Rat) (row : LoginState)
  | bindLoginState (tenantId stateHash requestId : String)
  | consumeLoginState (now : Rat) (tenantId stateHash : String)
  | rolesForGroups (tenantId : String) (groups : List String)
  /-- `upsert_user`, `create_session` and the event of the sign-in. -/
  | openSession (user : User) (session : Session) (entry : Entry)
  | findSession (tenantId tokenHash : String) (now idle : Rat)
  | touchSession (id : Nat) (now : Rat)
  | revokeSession (tenantId : String) (id : Nat) (now : Rat) (entry : Entry)
  | createToken (row : ApiToken) (entry : Entry)
  | findToken (tenantId tokenHash : String) (now : Rat)
  | touchToken (id : Nat) (now : Rat)
  | revokeToken (tenantId : String) (id : Nat) (now : Rat) (entry : Entry)
  | setMapping (row : RoleMapping) (grant : Bool) (entry : Entry)
  | append (entry : Entry)
  deriving DecidableEq

abbrev DbCall.Val : DbCall → Type
  | consumeLoginState .. => Option (String × String)
  | rolesForGroups .. => List String
  | findSession .. => Option (Session × User)
  | findToken .. => Option ApiToken
  | revokeToken .. | setMapping .. => Bool
  | createLoginState .. | bindLoginState .. | openSession .. | touchSession .. | revokeSession ..
  | createToken .. | touchToken .. | append _ => Unit

/-- The first `n` characters. -/
def cut (n : Nat) (text : String) : String := String.ofList (text.toList.take n)

/-- The row that `upsert_user` inserts. -/
def User.stored (user : User) : User :=
  { user with
    issuer := cut 500 user.issuer, subject := cut 500 user.subject
    email := cut 320 user.email, displayName := cut 200 user.displayName }

/-- Whether both rows are for one person. -/
def User.same (u v : User) : Bool :=
  u.tenantId = v.tenantId ∧ u.issuer = v.issuer ∧ u.subject = v.subject

/-- `upsert_user`: the id of the user, and the rows that are left. -/
def upsertUser (user : User) (users : List User) : Option (Nat × List User) :=
  match users.find? fun u => u.same user with
  | some found => some (found.id, users.map fun u =>
    if u.id = found.id then
      { u with email := cut 320 user.email, displayName := cut 200 user.displayName }
    else u)
  | none =>
    -- The id and `uq_users_identity` are unique.
    if users.any fun u => u.id = user.id ∨ u.same user.stored then none
    else some (user.id, users ++ [user.stored])

/-- What a transaction answers and leaves; `none` where it fails by itself. -/
def DbCall.run (d : Tables) : (c : DbCall) → Option (c.Val × Tables)
  | createLoginState now row =>
    let kept := d.loginStates.filter fun l => ¬ (l.tenantId = row.tenantId ∧ l.expiresAt < now)
    if kept.any fun l => l.id = row.id ∨ l.stateHash = row.stateHash then none
    else some ((), { d with loginStates := kept ++ [row] })
  | bindLoginState tenantId stateHash requestId =>
    some ((), { d with loginStates := d.loginStates.map fun l =>
      if l.tenantId = tenantId ∧ l.stateHash = stateHash then { l with nonce := cut 64 requestId }
      else l })
  | consumeLoginState now tenantId stateHash =>
    some ((d.loginStates.find? fun l => l.usable tenantId stateHash now).map fun l =>
        (l.nonce, l.codeVerifier),
      { d with loginStates := d.loginStates.filter fun l => !l.usable tenantId stateHash now })
  | rolesForGroups tenantId groups =>
    some ((d.mappings.filter fun m => m.tenantId = tenantId ∧ m.idpGroup ∈ groups).map (·.role), d)
  | openSession user session entry =>
    (upsertUser user d.users).bind fun upserted =>
      -- The id and the hash are unique.
      if d.sessions.any fun s => s.id = session.id ∨ s.tokenHash = session.tokenHash then none
      else some ((), { d with
        users := upserted.2
        sessions := d.sessions ++ [{ session with userId := upserted.1 }]
        audit := d.audit ++ [entry] })
  | findSession tenantId tokenHash now idle =>
    some ((d.sessions.find? fun s => s.live tenantId tokenHash now idle).bind fun s =>
      (d.users.find? fun u => u.id = s.userId).map fun u => (s, u), d)
  | touchSession id now =>
    some ((), { d with sessions := d.sessions.map fun s =>
      if s.id = id then { s with lastSeenAt := now } else s })
  | revokeSession tenantId id now entry =>
    some ((), { d with
      sessions := d.sessions.map fun s =>
        if s.tenantId = tenantId ∧ s.id = id then { s with revokedAt := some now } else s
      audit := d.audit ++ [entry] })
  | createToken row entry =>
    if d.tokens.any fun t => t.id = row.id ∨ t.tokenHash = row.tokenHash then none
    else some ((), { d with tokens := d.tokens ++ [row], audit := d.audit ++ [entry] })
  | findToken tenantId tokenHash now =>
    some (d.tokens.find? fun t => t.live tenantId tokenHash now, d)
  | touchToken id now =>
    some ((), { d with tokens := d.tokens.map fun t =>
      if t.id = id then { t with lastUsedAt := some now } else t })
  | revokeToken tenantId id now entry =>
    let hit := fun t : ApiToken => t.tenantId = tenantId ∧ t.id = id ∧ t.revokedAt = none
    if d.tokens.any fun t => hit t then
      some (true, { d with
        tokens := d.tokens.map fun t => if hit t then { t with revokedAt := some now } else t
        audit := d.audit ++ [entry] })
    else some (false, d)
  | setMapping row grant entry =>
    let changed := if grant then row ∉ d.mappings else row ∈ d.mappings
    if changed then
      some (true, { d with
        mappings := if grant then d.mappings ++ [row] else d.mappings.filter (· ≠ row)
        audit := d.audit ++ [entry] })
    else some (false, d)
  | append entry => some ((), { d with audit := d.audit ++ [entry] })

end Auth
end L1Agent
