import L1Agent.Auth.Kept

/-! # Who is let in

Over every run of a deployment that begins with empty tables, whatever the requests and the
identity provider do: a session goes back to one sign-in, which was started here, or to the
break-glass password (`session_signed_in`), and the state of a sign-in is consumed once
(`consumed_once`).

A handler runs for whom the presented credential is, within what the roles or the token allow
(`handled_by_session`, `handled_by_token`).  `CalledForUser` and `CalledForToken` name the look-up
that found the credential, at the instant that the same request had read from the clock, and say
that the row was live there.  A credential that is revoked is not found again (`logged_out`), and
neither is a session that was left idle (`session_in_use`).

The runs that the statements are tried on are cut from one schedule of a sign-in, a few requests
and a logout (`sampleMoves`).
-/
namespace L1Agent
namespace Auth
open Interleaving Rows

variable {site : Site} {cond : (service site).recorded.Cond} {s : State}
  {d : Config Calls Exn (State × List (service site).Event)}
  {pre post : List (service site).Event} {ev : (service site).Event}

/-- The event opens a session. -/
def Opens (ev : (service site).Event) : Prop := Op.opens ev.op

theorem opened_once (hr : (service site).recorded.Reaches cond (Config.idle (s, [])) d) :
    d.shared.2.Pairwise fun e e' => Opens e → Opens e' → e.thread ≠ e'.thread := by
  refine System.Each.pairwise fun pre ev post hsplit e he hopens hopens' hthread => ?_
  have hallowed : Allowed site (System.own ev.thread pre) ev.op :=
    allowed_of_reaches hr pre ev post hsplit
  obtain ⟨user, session, entry, hop⟩ : ∃ user session entry,
      ev.op = .db (.openSession user session entry) := by
    unfold Opens at hopens'
    generalize ev.op = o at hopens'
    cases o with
    | db c =>
      cases c with
      | openSession user session entry => exact ⟨user, session, entry, rfl⟩
      | _ => exact absurd hopens' id
    | _ => exact absurd hopens' id
  rw [hop] at hallowed
  have hmine := System.own_mem he
  rw [hthread] at hmine
  exact hallowed.1 _ hmine hopens

/-- **The state of a sign-in is consumed once.** -/
theorem consumed_once (hs : s.tables = {})
    (hr : (service site).recorded.Reaches cond (Config.idle (s, [])) d) :
    d.shared.2.Pairwise fun e e' => ∀ l l', Consumes e l → Consumes e' l' → l.id ≠ l'.id := by
  refine System.Each.pairwise fun pre ev post hsplit e he l l' hconsumes hconsumes' => ?_
  obtain ⟨now, stateHash, -, hl', -⟩ := hconsumes'
  exact (kept_of_reaches hs hr pre ev post hsplit).spent l' hl' e he l hconsumes

/-- What is true of two events whichever is first is true of one and all the others. -/
theorem others_of_pairwise {R : (service site).Event → (service site).Event → Prop}
    (hsymm : ∀ e e', R e e' → R e' e) (h : (pre ++ ev :: post).Pairwise R) :
    ∀ e ∈ pre ++ post, R e ev := by
  obtain ⟨-, hpost, hpre⟩ := List.pairwise_append.mp h
  intro e he
  rcases List.mem_append.mp he with he | he
  · exact hpre e he ev List.mem_cons_self
  · exact hsymm _ _ ((List.pairwise_cons.mp hpost).1 e he)

/-- What a request has done is an event of its own, before the present one. -/
theorem event_of_own {t : Nat} {x : Calls.Done} (hsplit : d.shared.2 = pre ++ ev :: post)
    (h : x ∈ System.own t pre) : ∃ before f mid, pre = before ++ f :: mid ∧
      d.shared.2 = before ++ f :: (mid ++ ev :: post) ∧ f.thread = t ∧ deed f = x := by
  obtain ⟨past, after, hown⟩ := List.append_of_mem h
  obtain ⟨before, f, mid, rfl, hthread, hdone, -⟩ := System.own_split hown
  exact ⟨before, f, mid, rfl, by rw [hsplit]; simp, hthread, hdone.symm⟩

/-- What was asked of the tables was allowed after what its thread had done. -/
theorem allowed_of_deed (hr : (service site).recorded.Reaches cond (Config.idle (s, [])) d)
    (hsplit : d.shared.2 = pre ++ ev :: post) {c : DbCall} {answer : Except Fault c.Val}
    (hdone : deed ev = asked c answer) : Allowed site (System.own ev.thread pre) (.db c) := by
  have hop : ev.op = .db c := congrArg (·.op) hdone
  have hallowed : Allowed site (System.own ev.thread pre) ev.op :=
    allowed_of_reaches hr pre ev post hsplit
  rw [hop] at hallowed
  exact hallowed

/-! ## A sign-in, two requests, a logout and a token -/

def sampleClaims : Json :=
  .obj [("sub", .str "ann"), ("nonce", .str "nonce"), ("groups", .arr [.str "ops"])]

/-- A deployment with a provider that vouches for one person of a group. -/
def sampleSite : Site where
  tenantId := "t"
  builtins := ⟨fun _ => "", fun _ => none, fun _ => false⟩
  hex id := id
  tenantOf := some
  sha256 text := "sha256:" ++ text
  uuidText _ := "id"
  oidc := some
    { issuer := "idp", groupsClaim := "groups"
      header := fun _ => some (.obj [("alg", .str "RS256")])
      decode := fun _ _ _ => .ok sampleClaims }
  verifyPassword _ _ := false

def sampleRead : Request where
  method := "GET"
  path := "/incidents"
  route := .other (some (.permission .incidentsRead))
  cookie := some "t.secret"

def sampleLogout : Request where
  method := "POST"
  path := "/auth/logout"
  route := .logout
  cookie := some "t.secret"
  csrf := "page"

def sampleTokenRead : Request :=
  { sampleRead with cookie := none, authorization := some "Bearer l1t_t_token" }

def draws (t : Nat) (secret : String) : Nat × Choice := (t, { secret })

def rounds (t n : Nat) : List (Nat × Choice) := List.replicate n (t, {})

def sampleSteps : List (Nat × Choice) :=
  rounds 0 1 ++
  [draws 1 "state", draws 1 "nonce", draws 1 "verifier"] ++ rounds 1 4 ++
  rounds 2 3 ++ [(2, { posted := .ok (200, some (.obj [("id_token", .str "jwt")])) })] ++
  rounds 2 1 ++ [(2, { keys := [.obj []] }), (2, {}), (2, { uuid := 1 }), draws 2 "secret",
    (2, { uuid := 2 }), (2, {}), draws 2 "page"] ++ rounds 2 2 ++
  rounds 3 3 ++ rounds 4 5 ++
  [draws 5 "token", (5, { uuid := 3 })] ++ rounds 5 2 ++ rounds 6 4

/-- The group is mapped, the person signs in, reads and logs out; the operator makes a token,
which is used. -/
def sampleMoves : List (service sampleSite).recorded.Move :=
  .start (setRoleMapping "t" "ops" "viewer" cliActor true) ::
    .start (oidcLogin sampleSite) :: .start (oidcCallback sampleSite "code" "state") ::
    .start (serve sampleSite sampleRead) :: .start (serve sampleSite sampleLogout) ::
    .start (createApiToken sampleSite "t" "reader" ["incidents.read"] 30 cliActor) ::
    .start (serve sampleSite sampleTokenRead) :: sampleSteps.map fun x => .op x.1 x.2

theorem starts_sampleMoves : (service sampleSite).recorded.Starts sampleMoves :=
  .start (Serves.cliRoles _ _ _ _) (.start Serves.oidcLogin (.start (Serves.oidcCallback _ _)
    (.start (Serves.request _) (.start (Serves.request _) (.start (Serves.cliToken _ _ _ _)
      (.start (Serves.request _) .each))))))

/-- What is to be seen in the run. -/
inductive Mark where
  | opened
  | found
  | loggedOut
  | calledForUser
  | calledForToken
  deriving DecidableEq

def mark (ev : (service sampleSite).Event) : Option Mark :=
  match ev with
  | ⟨_, .db (.openSession ..), _, _, _, _⟩ => some .opened
  | ⟨_, .db (.findSession _ _ _ idle), _, _, .ok (some _), _⟩ =>
    if idle = 60 * sampleSite.sessionIdleMinutes then some .found else none
  | ⟨_, .db (.revokeSession ..), _, _, .ok _, _⟩ => some .loggedOut
  | ⟨_, .handle _ (some p), _, _, _, _⟩ =>
    if p.kind = .user then some .calledForUser
    else if p.kind = .token then some .calledForToken else none
  | _ => none

theorem sample_play : ((service sampleSite).recorded.play (Config.idle ({}, [])) sampleMoves).map
    (fun d => d.shared.2.filterMap mark) =
      some [.opened, .found, .calledForUser, .found, .calledForUser, .loggedOut,
        .calledForToken] := by
  decide +kernel

/-- What an event with this mark is. -/
def Shown (ev : (service sampleSite).Event) : Mark → Prop
  | .opened => ∃ user session entry, ev.op = .db (.openSession user session entry)
  | .found => ∃ tenantId tokenHash now row u,
    deed ev = asked (.findSession tenantId tokenHash now (60 * sampleSite.sessionIdleMinutes))
      (.ok (some (row, u)))
  | .loggedOut => ∃ tenantId id now entry,
    deed ev = asked (.revokeSession tenantId id now entry) (.ok ())
  | .calledForUser => ∃ request p, ev.op = .handle request (some p) ∧ p.kind = .user
  | .calledForToken => ∃ request p, ev.op = .handle request (some p) ∧ p.kind = .token

theorem shown_of_mark {ev : (service sampleSite).Event} {m : Mark} (h : mark ev = some m) :
    Shown ev m := by
  obtain ⟨t, o, ch, before, x, after⟩ := ev
  cases o with
  | db c =>
    cases c with
    | openSession user session entry =>
      cases h
      exact ⟨user, session, entry, rfl⟩
    | findSession tenantId tokenHash now idle =>
      cases x with
      | error e => cases h
      | ok found =>
        cases found with
        | none => cases h
        | some found =>
          obtain ⟨row, u⟩ := found
          unfold mark at h
          dsimp only at h
          split_ifs at h with hidle
          cases h
          subst hidle
          exact ⟨tenantId, tokenHash, now, row, u, rfl⟩
    | revokeSession tenantId id now entry =>
      cases x with
      | error e => cases h
      | ok _ =>
        cases h
        exact ⟨tenantId, id, now, entry, rfl⟩
    | _ => cases h
  | handle request principal =>
    cases principal with
    | none => cases h
    | some p =>
      unfold mark at h
      dsimp only at h
      split_ifs at h with huser htoken
      · cases h
        exact ⟨request, p, rfl, huser⟩
      · cases h
        exact ⟨request, p, rfl, htoken⟩
  | _ => cases h

/-- The run shows each of the marks. -/
theorem sample_shown (m : Mark) :
    ∃ (d : Config Calls Exn (State × List (service sampleSite).Event))
      (pre post : List (service sampleSite).Event) (ev : (service sampleSite).Event),
      (service sampleSite).recorded.Reaches (service sampleSite).recorded.anyStep
        (Config.idle ({}, [])) d ∧ d.shared.2 = pre ++ ev :: post ∧ Shown ev m := by
  obtain ⟨d, hd, hseen⟩ := Option.map_eq_some_iff.mp sample_play
  have hmem : m ∈ d.shared.2.filterMap mark := by
    rw [hseen]
    cases m <;> decide
  obtain ⟨ev, hev, hm⟩ := List.mem_filterMap.mp hmem
  obtain ⟨pre, post, hsplit⟩ := List.append_of_mem hev
  exact ⟨d, pre, post, ev, System.play_reaches _ starts_sampleMoves hd, hsplit, shown_of_mark hm⟩

/-! ## Sign-in -/

variable (site) in
/-- What an identity provider says of a sign-in that was started as `l`. -/
inductive Vouched (past : List Calls.Done) (l : LoginState) (i : SignIn) : Prop where
  | oidc (oidc : Oidc) (sub claims : Json) (hoidc : site.oidc = some oidc)
      (hverified : Verified oidc past l.nonce l.codeVerifier claims)
      (hsub : claims.get? "sub" = some sub) (hi : i = oidc.signIn site.builtins sub claims)
  | saml (saml : Saml) (samlResponse : String) (identity : Identity)
      (hsaml : site.saml = some saml) (hprocess : saml.process samlResponse l.nonce = .ok identity)
      (hi : i = saml.signIn identity)

/-- The event consumes a state that was made before, and no other event consumes it. -/
structure StartedHere (before mid post : List (service site).Event) (e : (service site).Event)
    (l : LoginState) : Prop where
  consumes : Consumes e l
  starts : ∃ o ∈ before, Starts o l
  alone : ∀ e' ∈ before ++ mid ++ post, ∀ l', Consumes e' l' → l'.id ≠ l.id

theorem startedHere_of_consumed (hs : s.tables = {})
    (hr : (service site).recorded.Reaches cond (Config.idle (s, [])) d)
    (hsplit : d.shared.2 = pre ++ ev :: post) {nonce verifier : String}
    (h : Consumed site (System.own ev.thread pre) nonce verifier) :
    ∃ before e mid l, pre = before ++ e :: mid ∧ e.thread = ev.thread ∧
      StartedHere before mid post e l ∧ l.nonce = nonce ∧ l.codeVerifier = verifier := by
  obtain ⟨now, state, hmem⟩ := h
  obtain ⟨p, e, q, hpre, hfirst, hthread, hdone⟩ := event_of_own hsplit hmem
  have hran : Ran e := ran_of_reaches hr _ _ _ hfirst
  obtain ⟨l, hconsumes, hnonce, hverifier⟩ := hran.consumes hdone
  have hkept := kept_of_reaches hs hr _ _ _ hfirst
  have hl : l ∈ e.before.tables.loginStates := by
    obtain ⟨now', stateHash, -, hl, -⟩ := hconsumes
    exact hl
  have hothers := others_of_pairwise
    (R := fun e e' => ∀ l l', Consumes e l → Consumes e' l' → l.id ≠ l'.id)
    (fun _ _ h l l' hl hl' heq => h l' l hl' hl heq.symm) (hfirst ▸ consumed_once hs hr)
  refine ⟨p, e, q, l, hpre, hthread, ⟨hconsumes, hkept.started l hl, fun e' he' l' hl' => ?_⟩,
    hnonce, hverifier⟩
  refine hothers e' ?_ l' l hl' hconsumes
  simp only [List.mem_append, List.mem_cons] at he' ⊢
  tauto

/-- A session is opened for a sign-in with the break-glass password, or at a provider: then the
same request has consumed the state of a sign-in that was started here, which no other event does,
and the provider's answer is for that state. -/
def OpenedBySignIn (pre post : List (service site).Event) (ev : (service site).Event)
    (user : User) (session : Session) : Prop :=
  ∃ i granted cookie csrf now,
    session = newSession site i granted session.id cookie csrf now ∧
    user.issuer = i.issuer ∧ user.subject = i.subject ∧
    Granted site (System.own ev.thread pre) i granted ∧
    (i = breakGlassSignIn ∧ site.breakGlassPasswordHash ≠ "" ∧
      (∃ password, site.verifyPassword password site.breakGlassPasswordHash = true) ∨
    ∃ before e mid l, pre = before ++ e :: mid ∧ e.thread = ev.thread ∧
      StartedHere before mid post e l ∧ Vouched site (System.own ev.thread pre) l i) ∧
    ∀ e ∈ pre ++ post, Opens e → e.thread ≠ ev.thread

/-- **Whoever is given a session has signed in**, and each sign-in gives one session, with the
roles that it is granted. -/
theorem session_signed_in (hs : s.tables = {})
    (hr : (service site).recorded.Reaches cond (Config.idle (s, [])) d)
    (hsplit : d.shared.2 = pre ++ ev :: post) {user : User} {session : Session} {entry : Entry}
    (hop : ev.op = .db (.openSession user session entry)) :
    OpenedBySignIn pre post ev user session := by
  have hallowed : Allowed site (System.own ev.thread pre) ev.op :=
    allowed_of_reaches hr pre ev post hsplit
  have hopens : Opens ev := by
    unfold Opens
    rw [hop]
    exact True.intro
  have halone : ∀ e ∈ pre ++ post, Opens e → e.thread ≠ ev.thread := by
    intro e he hopens'
    refine others_of_pairwise (R := fun e e' => Opens e → Opens e' → e.thread ≠ e'.thread) ?_
      (hsplit ▸ opened_once hr) e he hopens' hopens
    exact fun _ _ h he he' heq => h he' he heq.symm
  rw [hop] at hallowed
  obtain ⟨-, i, granted, cookie, csrf, now, hsigned, hgranted, hsession, -, hissuer, hsubject, -⟩ :=
    hallowed
  refine ⟨i, granted, cookie, csrf, now, hsession, hissuer, hsubject, hgranted, ?_, halone⟩
  cases hsigned with
  | breakGlass password hhash hpassword hi => exact Or.inl ⟨hi, hhash, password, hpassword⟩
  | oidc oidc nonce verifier sub claims hoidc hconsumed hverified hsub hi =>
    obtain ⟨before, e, mid, l, hpre, hthread, hhere, rfl, rfl⟩ :=
      startedHere_of_consumed hs hr hsplit hconsumed
    exact Or.inr ⟨before, e, mid, l, hpre, hthread, hhere,
      .oidc oidc sub claims hoidc hverified hsub hi⟩
  | saml saml requestId verifier samlResponse identity hsaml hconsumed hprocess hi =>
    obtain ⟨before, e, mid, l, hpre, hthread, hhere, rfl, -⟩ :=
      startedHere_of_consumed hs hr hsplit hconsumed
    exact Or.inr ⟨before, e, mid, l, hpre, hthread, hhere,
      .saml saml samlResponse identity hsaml hprocess hi⟩

theorem session_signed_in_sample : ∃ (pre post : List (service sampleSite).Event)
    (ev : (service sampleSite).Event) (user : User) (session : Session) (entry : Entry),
    ev.op = .db (.openSession user session entry) ∧ OpenedBySignIn pre post ev user session := by
  obtain ⟨d, pre, post, ev, hr, hsplit, user, session, entry, hop⟩ := sample_shown .opened
  exact ⟨pre, post, ev, user, session, entry, hop, session_signed_in rfl hr hsplit hop⟩

/-! ## Sessions -/

/-- What a session was opened as. -/
theorem opened_of_found (hs : s.tables = {})
    (hr : (service site).recorded.Reaches cond (Config.idle (s, [])) d)
    (hsplit : d.shared.2 = pre ++ ev :: post) {tenantId tokenHash : String} {now idle : Rat}
    {row : Session} {u : User}
    (hdone : deed ev = asked (.findSession tenantId tokenHash now idle) (.ok (some (row, u)))) :
    row ∈ ev.before.tables.sessions ∧ row.live tenantId tokenHash now idle = true ∧
      ∃ o ∈ pre, ∃ user session entry, o.op = .db (.openSession user session entry) ∧
        row = { session with userId := u.id, lastSeenAt := row.lastSeenAt, revokedAt := none } ∧
        u.For user := by
  have hkept := kept_of_reaches hs hr pre ev post hsplit
  have hran : Ran ev := ran_of_reaches hr pre ev post hsplit
  obtain ⟨hrow, hlive, hu, huid⟩ := hran.found hdone
  obtain ⟨o, ho, user, session, entry, uid, hop, ⟨seen, revoked, hnext, -⟩, u', hu', hid, hfor⟩ :=
    hkept.opened row hrow
  have hrevoked : row.revokedAt = none := (of_decide_eq_true hlive).2.2.1
  have huid' : row.userId = uid := by rw [hnext]
  obtain rfl : u' = u :=
    List.inj_on_of_nodup_map hkept.sound.users hu' hu (hid.trans (huid'.symm.trans huid.symm))
  refine ⟨hrow, hlive, o, ho, user, session, entry, hop, ?_, hfor⟩
  rw [hnext] at hrevoked
  obtain rfl : revoked = none := hrevoked
  rw [hid, hnext]

/-- The cookie of the request has found a session, unexpired, not idle and unrevoked at the instant
that the same request had read from the clock, as an earlier sign-in has opened it; the user is who
has signed in, has the permission that the route is declared with by a role of the sign-in, and the
page has presented the token of its session where the method can change something. -/
def CalledForUser (pre : List (service site).Event) (ev : (service site).Event)
    (request : Request) (p : Principal) : Prop :=
  ∃ access cookie before f mid o user session entry row u tenantId now,
    request.route.access = some access ∧
    (request.authorization = none ∧ request.cookie = some cookie) ∧
    (pre = before ++ f :: mid ∧ f.thread = ev.thread ∧
      deed f = asked (.findSession tenantId (site.sha256 cookie) now (60 * site.sessionIdleMinutes))
        (.ok (some (row, u))) ∧
      (⟨.utcnow, now⟩ : Calls.Done) ∈ System.own ev.thread before) ∧
    (row ∈ f.before.tables.sessions ∧
      row.live tenantId (site.sha256 cookie) now (60 * site.sessionIdleMinutes) = true) ∧
    (o ∈ before ∧ o.op = .db (.openSession user session entry)) ∧
    row = { session with userId := u.id, lastSeenAt := row.lastSeenAt, revokedAt := none } ∧
    u.For user ∧ p = sessionPrincipal row u tenantId ∧
    (∀ permission, access = .permission permission →
      ∃ role : Role, role.value ∈ session.roles ∧ permission ∈ rolePermissions role) ∧
    (request.method ∉ safeMethods → request.csrf = session.csrfToken ∧ request.csrf ≠ "")

/-- **A handler that is called for a user** is called for whom the cookie of the request is. -/
theorem handled_by_session (hs : s.tables = {})
    (hr : (service site).recorded.Reaches cond (Config.idle (s, [])) d)
    (hsplit : d.shared.2 = pre ++ ev :: post) {request : Request} {p : Principal}
    (hop : ev.op = .handle request (some p)) (huser : p.kind = .user) :
    CalledForUser pre ev request p := by
  have hallowed : Allowed site (System.own ev.thread pre) ev.op :=
    allowed_of_reaches hr pre ev post hsplit
  rw [hop] at hallowed
  obtain ⟨access, q, haccess, hq, hmissing, hcsrf, hknown⟩ :=
    hallowed.resolve_left fun h => by cases h.2
  cases hq
  cases hknown with
  | token header presented tenantId now t hheader hfound hp =>
    rw [hp] at huser
    cases huser
  | demo hopen hp =>
    rw [hp] at huser
    cases huser
  | session cookie tenantId now row u hcookie htenant hfound hp =>
    obtain ⟨before, f, mid, hpre, hfirst, hthread, hdone⟩ := event_of_own hsplit hfound
    obtain ⟨hrow, hlive, o, ho, user, session, entry, hopen, hsession, hfor⟩ :=
      opened_of_found hs hr hfirst hdone
    have hread : (⟨.utcnow, now⟩ : Calls.Done) ∈ System.own ev.thread before :=
      hthread ▸ allowed_of_deed hr hfirst hdone
    refine ⟨access, cookie, before, f, mid, o, user, session, entry, row, u, tenantId, now, haccess,
      hcookie, ⟨hpre, hthread, hdone, hread⟩, ⟨hrow, hlive⟩, ⟨ho, hopen⟩, hsession, hfor, hp, ?_, ?_⟩
    · rintro permission rfl
      have hhas := has_of_missing hmissing
      rw [hp] at hhas
      obtain ⟨role, hrole, hpermission⟩ := mem_permissionsFor (of_decide_eq_true hhas)
      refine ⟨role, ?_, hpermission⟩
      have hroles : row.roles = session.roles := by rw [hsession]
      rw [← hroles]
      exact (mem_knownNames.mp hrole).1
    · intro hunsafe
      have htoken : p.csrfToken = session.csrfToken := by rw [hp, hsession]; rfl
      unfold checkCsrf at hcsrf
      rw [if_pos ⟨huser, hunsafe⟩] at hcsrf
      split_ifs at hcsrf with hempty hascii hsame
      rw [← htoken]
      exact ⟨not_not.mp hsame, hempty⟩

theorem handled_by_session_sample : ∃ (pre : List (service sampleSite).Event)
    (ev : (service sampleSite).Event) (request : Request) (p : Principal),
    ev.op = .handle request (some p) ∧ CalledForUser pre ev request p := by
  obtain ⟨d, pre, post, ev, hr, hsplit, request, p, hop, huser⟩ := sample_shown .calledForUser
  exact ⟨pre, ev, request, p, hop, handled_by_session rfl hr hsplit hop huser⟩

/-- What has been found of a session is what it still is, but for its use and its revocation. -/
theorem next_of_found (hr : (service site).recorded.Reaches cond (Config.idle (s, [])) d)
    (hsplit : d.shared.2 = pre ++ ev :: post) {f : (service site).Event} (hf : f ∈ pre) :
    f.before.tables.Next ev.before.tables := by
  obtain ⟨before, mid, rfl⟩ := List.append_of_mem hf
  have hfirst : d.shared.2 = before ++ f :: (mid ++ ev :: post) := by rw [hsplit]; simp
  have hran : Ran f := ran_of_reaches hr _ _ _ hfirst
  exact (step_next hran).trans (next_of_reaches hr _ ev post hsplit f (by simp))

/-- **Nobody comes back after a logout**: once it has been answered, the session is not found, and
the handlers that begin for it then are those of requests that had found it before. -/
theorem logged_out (hs : s.tables = {})
    (hr : (service site).recorded.Reaches cond (Config.idle (s, [])) d)
    (hsplit : d.shared.2 = pre ++ ev :: post) {tenantId : String} {id : Nat} {now : Rat}
    {entry : Entry} (hdone : deed ev = asked (.revokeSession tenantId id now entry) (.ok ())) :
    (∀ f ∈ post, ∀ tenantId tokenHash now idle row u,
      deed f = asked (.findSession tenantId tokenHash now idle) (.ok (some (row, u))) →
        row.id ≠ id) ∧
    ∀ h ∈ post, ∀ request p, h.op = .handle request (some p) → p.sessionId = some id →
      ∃ f ∈ pre, f.thread = h.thread ∧ ∃ tenantId tokenHash now idle row u,
        deed f = asked (.findSession tenantId tokenHash now idle) (.ok (some (row, u))) ∧
          row.id = id := by
  have hnotFound : ∀ f ∈ post, ∀ tenantId tokenHash now idle row u,
      deed f = asked (.findSession tenantId tokenHash now idle) (.ok (some (row, u))) →
        row.id ≠ id := by
    intro f hf tenantId' tokenHash' now' idle' row u hfound heq
    -- The session that the request has found is the one that is revoked.
    have hallowed : Allowed site (System.own ev.thread pre) ev.op :=
      allowed_of_reaches hr pre ev post hsplit
    have hop : ev.op = .db (.revokeSession tenantId id now entry) :=
      congrArg Signature.Done.op hdone
    rw [hop] at hallowed
    obtain ⟨tokenHash, now₀, idle, s₀, u₀, hmem, hid⟩ := hallowed
    obtain ⟨p, f₀, q, hpre, hfirst, -, hdone₀⟩ := event_of_own hsplit hmem
    have hran₀ : Ran f₀ := ran_of_reaches hr _ _ _ hfirst
    obtain ⟨hs₀, hlive₀, -⟩ := hran₀.found hdone₀
    have htenant : s₀.tenantId = tenantId := (of_decide_eq_true hlive₀).1
    have hearlier := next_of_found hr hsplit (f := f₀) (by rw [hpre]; simp)
    obtain ⟨s₁, hs₁, hnext₁⟩ := hearlier.sessions s₀ hs₀
    have hran : Ran ev := ran_of_reaches hr pre ev post hsplit
    have hrun := hran.effect hdone
    obtain ⟨s₂, hs₂, hnext₂⟩ := (run_effect hrun).next.sessions s₁ hs₁
    have hnext := hnext₁.trans hnext₂
    have hrevoked : s₂.revokedAt ≠ none := by
      refine run_revokeSession hrun hs₂ ?_ ((hnext.id_eq).trans hid)
      obtain ⟨_, _, rfl, -⟩ := hnext
      exact htenant
    -- It stays so until the look-up.
    obtain ⟨p', q', rfl⟩ := List.append_of_mem hf
    have hlater : d.shared.2 = (pre ++ ev :: p') ++ f :: q' := by rw [hsplit]; simp
    have hkept := kept_of_reaches hs hr _ f q' hlater
    have hranf : Ran f := ran_of_reaches hr _ f q' hlater
    obtain ⟨hrow, hlive, -⟩ := hranf.found hfound
    have hcarried := (next_of_reaches hr _ f q' hlater ev (by simp)).sessions
    obtain ⟨seen, revoked, rfl, hstays⟩ := hcarried.found Session.Next.id_eq hkept.sound.sessions
      hs₂ hrow (heq.trans ((hnext.id_eq).trans hid).symm)
    exact hstays hrevoked (of_decide_eq_true hlive).2.2.1
  refine ⟨hnotFound, fun h hh request p hop hp => ?_⟩
  obtain ⟨p', q', rfl⟩ := List.append_of_mem hh
  have hlater : d.shared.2 = (pre ++ ev :: p') ++ h :: q' := by rw [hsplit]; simp
  have hallowed : Allowed site (System.own h.thread (pre ++ ev :: p')) h.op :=
    allowed_of_reaches hr _ h q' hlater
  rw [hop] at hallowed
  obtain ⟨access, q, -, hq, -, -, hknown⟩ := hallowed.resolve_left fun h => by cases h.2
  cases hq
  obtain ⟨tokenHash, now', idle, row, u, hmem, hid⟩ := hknown.found hp
  obtain ⟨b, f, m, hsplit', -, hthread, hfound⟩ := event_of_own hlater hmem
  have hf : f ∈ pre ++ ev :: p' := by rw [hsplit']; simp
  rcases List.mem_append.mp hf with hf | hf
  · exact ⟨f, hf, hthread, p.tenantId, tokenHash, now', idle, row, u, hfound, hid⟩
  · rcases List.mem_cons.mp hf with rfl | hf
    · rw [hfound] at hdone
      cases hdone
    · exact absurd hid (hnotFound f (by simp [hf]) _ _ _ _ _ _ hfound)

theorem logged_out_sample : ∃ (pre post : List (service sampleSite).Event)
    (ev : (service sampleSite).Event) (tenantId : String) (id : Nat) (now : Rat) (entry : Entry),
    deed ev = asked (.revokeSession tenantId id now entry) (.ok ()) ∧
    (∀ f ∈ post, ∀ tenantId tokenHash now idle row u,
      deed f = asked (.findSession tenantId tokenHash now idle) (.ok (some (row, u))) →
        row.id ≠ id) ∧
    ∀ h ∈ post, ∀ request p, h.op = .handle request (some p) → p.sessionId = some id →
      ∃ f ∈ pre, f.thread = h.thread ∧ ∃ tenantId tokenHash now idle row u,
        deed f = asked (.findSession tenantId tokenHash now idle) (.ok (some (row, u))) ∧
          row.id = id := by
  obtain ⟨d, pre, post, ev, hr, hsplit, tenantId, id, now, entry, hdone⟩ := sample_shown .loggedOut
  exact ⟨pre, post, ev, tenantId, id, now, entry, hdone, logged_out rfl hr hsplit hdone⟩

/-- **A session that is left idle is lost**: it is found at a reading only if it was in use less
than the idle limit before that, by its sign-in or because it was found then, and before it has
expired. -/
theorem session_in_use (hs : s.tables = {})
    (hr : (service site).recorded.Reaches cond (Config.idle (s, [])) d)
    (hsplit : d.shared.2 = pre ++ ev :: post) {tenantId tokenHash : String} {now : Rat}
    {row : Session} {u : User}
    (hdone : deed ev = asked (.findSession tenantId tokenHash now (60 * site.sessionIdleMinutes))
      (.ok (some (row, u)))) :
    (∃ seen, InUse pre row.id seen ∧ now - 60 * site.sessionIdleMinutes < seen) ∧
      ∃ o ∈ pre, ∃ user session entry, o.op = .db (.openSession user session entry) ∧
        session.id = row.id ∧ now < session.expiresAt := by
  obtain ⟨hrow, hlive, o, ho, user, session, entry, hop, hsession, -⟩ :=
    opened_of_found hs hr hsplit hdone
  obtain ⟨-, -, -, hexpires, hgap⟩ := of_decide_eq_true hlive
  refine ⟨⟨row.lastSeenAt, (kept_of_reaches hs hr pre ev post hsplit).used row hrow, hgap⟩,
    o, ho, user, session, entry, hop, ?_, ?_⟩
  · rw [hsession]
  · rw [hsession] at hexpires
    exact hexpires

theorem session_in_use_sample : ∃ (pre : List (service sampleSite).Event) (id : Nat) (now : Rat),
    (∃ seen, InUse pre id seen ∧ now - 60 * sampleSite.sessionIdleMinutes < seen) ∧
      ∃ o ∈ pre, ∃ user session entry, o.op = .db (.openSession user session entry) ∧
        session.id = id ∧ now < session.expiresAt := by
  obtain ⟨d, pre, post, ev, hr, hsplit, tenantId, tokenHash, now, row, u, hdone⟩ :=
    sample_shown .found
  exact ⟨pre, row.id, now, session_in_use rfl hr hsplit hdone⟩

/-! ## API tokens -/

/-- A token that has been revoked is not found again. -/
theorem token_revoked (hs : s.tables = {})
    (hr : (service site).recorded.Reaches cond (Config.idle (s, [])) d)
    (hsplit : d.shared.2 = pre ++ ev :: post) {tenantId tokenHash : String} {now : Rat}
    {row : ApiToken} (hdone : deed ev = asked (.findToken tenantId tokenHash now) (.ok (some row)))
    {e : (service site).Event} (he : e ∈ pre) (now' : Rat) (entry : Entry) :
    deed e ≠ asked (.revokeToken tenantId row.id now' entry) (.ok true) := by
  intro hrevoke
  obtain ⟨before, mid, rfl⟩ := List.append_of_mem he
  have hfirst : d.shared.2 = before ++ e :: (mid ++ ev :: post) := by rw [hsplit]; simp
  have hrane : Ran e := ran_of_reaches hr _ _ _ hfirst
  obtain ⟨t, ht, -, hid, hrevoked⟩ := run_revokeToken (hrane.effect hrevoke)
  have hran : Ran ev := ran_of_reaches hr _ ev post hsplit
  obtain ⟨hrow, hlive⟩ := hran.foundToken hdone
  have hcarried := (next_of_reaches hr _ ev post hsplit e (by simp)).tokens
  obtain ⟨used, revoked, rfl, hstays⟩ := hcarried.found ApiToken.Next.id_eq
    (kept_of_reaches hs hr _ ev post hsplit).sound.tokens ht hrow hid.symm
  exact hstays hrevoked (of_decide_eq_true hlive).2.2.1

/-- The secret that the request presents has found a token, unexpired and unrevoked at the instant
that the same request had read from the clock, that allows what the route is declared with.  It was
made by the operator, or by a handler that was called for a principal of the same tenant who manages
tokens, and then it allows no more than tokens may carry. -/
def CalledForToken (pre : List (service site).Event) (ev : (service site).Event)
    (request : Request) (p : Principal) : Prop :=
  ∃ access header presented before f mid first o rest new entry row tenantId now,
    request.route.access = some access ∧
    (request.authorization = some header ∧ bearer header = some presented) ∧
    (pre = before ++ f :: mid ∧ f.thread = ev.thread ∧
      deed f = asked (.findToken tenantId (site.sha256 presented) now) (.ok (some row)) ∧
      (⟨.utcnow, now⟩ : Calls.Done) ∈ System.own ev.thread before) ∧
    (row ∈ f.before.tables.tokens ∧
      row.live tenantId (site.sha256 presented) now = true ∧
      ∀ e ∈ before, ∀ now entry,
        deed e ≠ asked (.revokeToken tenantId row.id now entry) (.ok true)) ∧
    (before = first ++ o :: rest ∧ o.op = .db (.createToken new entry) ∧ new.Next row) ∧
    p = tokenPrincipal site row tenantId ∧
    (∀ permission, access = .permission permission → permission.value ∈ new.permissions) ∧
    (entry.actor = cliActor ∨
      (∃ maker made, (⟨.handle made (some maker), ()⟩ : Calls.Done) ∈
          System.own o.thread first ∧
        maker.has .tokensManage = true ∧ maker.tenantId = tenantId ∧
        entry.actor = maker.actor) ∧
      ∀ permission, p.has permission = true → permission ∈ tokenPermissions)

/-- **A handler that is called for a token** is called within what the token allows. -/
theorem handled_by_token (hs : s.tables = {})
    (hr : (service site).recorded.Reaches cond (Config.idle (s, [])) d)
    (hsplit : d.shared.2 = pre ++ ev :: post) {request : Request} {p : Principal}
    (hop : ev.op = .handle request (some p)) (htoken : p.kind = .token) :
    CalledForToken pre ev request p := by
  have hallowed : Allowed site (System.own ev.thread pre) ev.op :=
    allowed_of_reaches hr pre ev post hsplit
  rw [hop] at hallowed
  obtain ⟨access, q, haccess, hq, hmissing, -, hknown⟩ :=
    hallowed.resolve_left fun h => by cases h.2
  cases hq
  cases hknown with
  | session cookie tenantId now s u hcookie htenant hfound hp =>
    rw [hp] at htoken
    cases htoken
  | demo hopen hp =>
    rw [hp] at htoken
    cases htoken
  | token header presented tenantId now row hheader hfound hp =>
    obtain ⟨before, f, mid, hpre, hfirst, hthread, hdone⟩ := event_of_own hsplit hfound
    have hran : Ran f := ran_of_reaches hr _ _ _ hfirst
    obtain ⟨hrow, hlive⟩ := hran.foundToken hdone
    have hread : (⟨.utcnow, now⟩ : Calls.Done) ∈ System.own ev.thread before :=
      hthread ▸ allowed_of_deed hr hfirst hdone
    obtain ⟨o, ho, new, entry, hopo, hnext⟩ :=
      (kept_of_reaches hs hr _ _ _ hfirst).made row hrow
    obtain ⟨first, rest, hbefore⟩ := List.append_of_mem ho
    have hissuing : Allowed site (System.own o.thread first) o.op :=
      allowed_of_reaches hr first o (rest ++ f :: (mid ++ ev :: post)) (by
        rw [hfirst, hbefore]
        simp)
    rw [hopo] at hissuing
    have hpermissions : row.permissions = new.permissions := by
      obtain ⟨_, _, rfl, -⟩ := hnext
      rfl
    have hallows : ∀ permission, p.has permission = true →
        permission.value ∈ new.permissions := by
      intro permission hhas
      rw [hp] at hhas
      rw [← hpermissions]
      exact mem_permissionsNamed.mp (of_decide_eq_true hhas)
    refine ⟨access, header, presented, before, f, mid, first, o, rest, new, entry, row, tenantId,
      now, haccess, hheader, ⟨hpre, hthread, hdone, hread⟩, ⟨hrow, hlive, fun e he now' entry' => ?_⟩,
      ⟨hbefore, hopo, hnext⟩, hp, ?_, ?_⟩
    · exact token_revoked hs hr hfirst hdone he now' entry'
    · rintro permission rfl
      exact hallows permission (has_of_missing hmissing)
    · refine hissuing.2.imp_right ?_
      rintro ⟨made, maker, hmade, hmanages, htenant, hactor, hwithin⟩
      have hsame : row.tenantId = new.tenantId := by
        obtain ⟨_, _, rfl, -⟩ := hnext
        rfl
      refine ⟨⟨maker, made, hmade, hmanages, ?_, hactor⟩, fun permission hhas => ?_⟩
      · rw [htenant, ← hsame]
        exact (of_decide_eq_true hlive).1
      · obtain ⟨permission', hmem, heq⟩ := List.mem_map.mp (hwithin (hallows permission hhas))
        rw [← Permission.value_injective heq]
        exact hmem

theorem handled_by_token_sample : ∃ (pre : List (service sampleSite).Event)
    (ev : (service sampleSite).Event) (request : Request) (p : Principal),
    ev.op = .handle request (some p) ∧ CalledForToken pre ev request p := by
  obtain ⟨d, pre, post, ev, hr, hsplit, request, p, hop, htoken⟩ := sample_shown .calledForToken
  exact ⟨pre, ev, request, p, hop, handled_by_token rfl hr hsplit hop htoken⟩

end Auth
end L1Agent
