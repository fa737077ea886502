import L1Agent.Auth.SignIn

/-! # What a request does, by its own past

`Allowed` says which operations a request, a sign-in or a command calls after what it has done by
then: a session is opened for what an identity provider has said of a sign-in that was started
here, or for the break-glass password; and the handler of a route begins for a principal that was
looked up and may call it.

The look-ups are asked at an instant that the same request has read from the clock.
`serves_follows` shows it of every program of `Serves`, whatever its operations are answered.
-/
namespace L1Agent
namespace Auth
open Interleaving

variable (site : Site)

/-- A transaction and what was answered. -/
abbrev asked (c : DbCall) (answer : Except Fault c.Val) : Calls.Done := ⟨.db c, answer⟩

/-- A state is made by one that has only drawn what is in it. -/
def Prepared (past : List Calls.Done) (now : Rat) (row : LoginState) : Prop :=
  ∃ state nonce verifier : String,
    past = [⟨.token, state⟩, ⟨.token, nonce⟩, ⟨.token, verifier⟩, ⟨.utcnow, now⟩,
      ⟨.uuid4, row.id⟩] ∧
    row = ⟨row.id, site.tenantId, site.sha256 state, nonce, verifier, now + 10 * 60⟩

/-- The state of a sign-in has been consumed, with what was kept with it. -/
def Consumed (past : List Calls.Done) (nonce verifier : String) : Prop :=
  ∃ now state, asked (.consumeLoginState now site.tenantId (site.sha256 state))
    (.ok (some (nonce, verifier))) ∈ past

/-- An ID token has been verified: it was given for the verifier, signed with a key of the
provider, and carries the nonce. -/
def Verified (oidc : Oidc) (past : List Calls.Done) (nonce verifier : String) (claims : Json) :
    Prop :=
  ∃ code body idToken jwk algorithm,
    (⟨.postToken code verifier, .ok (200, some body)⟩ : Calls.Done) ∈ past ∧
    body.getD "id_token" .null = .str idToken ∧ algorithm ∈ allowedAlgorithms ∧
    (∃ keys : List Json, (⟨.keys, keys⟩ : Calls.Done) ∈ past ∧ jwk ∈ keys) ∧
    oidc.decode idToken jwk algorithm = .ok claims ∧ nonce ≠ "" ∧
    claims.getD "nonce" .null = .str nonce

/-- **Who may be given a session.** -/
inductive SignedIn (past : List Calls.Done) (i : SignIn) : Prop where
  | oidc (oidc : Oidc) (nonce verifier : String) (sub claims : Json)
      (hoidc : site.oidc = some oidc) (hconsumed : Consumed site past nonce verifier)
      (hverified : Verified oidc past nonce verifier claims) (hsub : claims.get? "sub" = some sub)
      (hi : i = oidc.signIn site.builtins sub claims)
  | saml (saml : Saml) (requestId verifier samlResponse : String) (identity : Identity)
      (hsaml : site.saml = some saml) (hconsumed : Consumed site past requestId verifier)
      (hprocess : saml.process samlResponse requestId = .ok identity)
      (hi : i = saml.signIn identity)
  | breakGlass (password : String) (hhash : site.breakGlassPasswordHash ≠ "")
      (hpassword : site.verifyPassword password site.breakGlassPasswordHash = true)
      (hi : i = breakGlassSignIn)

/-- The roles of a sign-in: those given with it, or those that its groups are mapped to. -/
def Granted (past : List Calls.Done) (i : SignIn) (granted : List String) : Prop :=
  granted ≠ [] ∧ (i.roles ≠ [] ∧ granted = i.roles ∨ i.roles = [] ∧ ∃ roles : List String,
    asked (.rolesForGroups site.tenantId (i.groups.take 500)) (.ok roles) ∈ past ∧
    granted = validRoles roles)

/-- No session has been opened. -/
def Op.opens : Op → Prop
  | .db (.openSession ..) => True
  | _ => False

/-- A session is opened for one that is signed in, with the roles that it is granted. -/
def Opening (past : List Calls.Done) (user : User) (session : Session) (entry : Entry) : Prop :=
  (∀ d ∈ past, ¬ Op.opens d.op) ∧
  ∃ i granted cookie csrf now, SignedIn site past i ∧ Granted site past i granted ∧
    session = newSession site i granted session.id cookie csrf now ∧
    user.tenantId = site.tenantId ∧ user.issuer = i.issuer ∧ user.subject = i.subject ∧
    entry.eventType = "auth.login"

/-- **Whom a request is from**, by the credential that it presents. -/
inductive Known (past : List Calls.Done) (request : Request) (p : Principal) : Prop where
  | session (cookie tenantId : String) (now : Rat) (s : Session) (u : User)
      (hcookie : request.authorization = none ∧ request.cookie = some cookie)
      (htenant : site.tenantOf (partition '.' cookie).1 = some tenantId)
      (hfound : asked (.findSession tenantId (site.sha256 cookie) now
        (60 * site.sessionIdleMinutes)) (.ok (some (s, u))) ∈ past)
      (hp : p = sessionPrincipal s u tenantId)
  | token (header presented tenantId : String) (now : Rat) (t : ApiToken)
      (hheader : request.authorization = some header ∧ bearer header = some presented)
      (hfound : asked (.findToken tenantId (site.sha256 presented) now) (.ok (some t)) ∈ past)
      (hp : p = tokenPrincipal site t tenantId)
  | demo (hopen : site.demoOpen = true) (hp : p = demoPrincipal site)

/-- **Who may call a route.** -/
def Admitted (past : List Calls.Done) (request : Request) (principal : Option Principal) : Prop :=
  request.route.access = some .isPublic ∧ principal = none ∨
  ∃ access p, request.route.access = some access ∧ principal = some p ∧ missing access p = none ∧
    checkCsrf request p = .ok () ∧ Known site past request p

/-- A token is made by a principal that manages tokens, within what tokens may carry, or by the
operator. -/
def Issuing (past : List Calls.Done) (row : ApiToken) (entry : Entry) : Prop :=
  row.permissions ⊆ Permission.all.map Permission.value ∧
  (entry.actor = cliActor ∨ ∃ request p, (⟨.handle request (some p), ()⟩ : Calls.Done) ∈ past ∧
    p.has .tokensManage = true ∧ p.tenantId = row.tenantId ∧ entry.actor = p.actor ∧
    row.permissions ⊆ tokenPermissions.map Permission.value)

/-- The operations that may be called after this past. -/
def Allowed (past : List Calls.Done) : Op → Prop
  | .db (.createLoginState now row) => Prepared site past now row
  | .db (.openSession user session entry) => Opening site past user session entry
  | .db (.touchSession id now) => ∃ tenantId tokenHash s u,
    asked (.findSession tenantId tokenHash now (60 * site.sessionIdleMinutes))
      (.ok (some (s, u))) ∈ past ∧ s.id = id
  | .db (.revokeSession tenantId id _ _) => ∃ tokenHash now idle s u,
    asked (.findSession tenantId tokenHash now idle) (.ok (some (s, u))) ∈ past ∧ s.id = id
  | .db (.createToken row entry) => Issuing past row entry
  -- A credential is looked up at the instant that the clock has been read.
  | .db (.findSession _ _ now _) | .db (.findToken _ _ now) => (⟨.utcnow, now⟩ : Calls.Done) ∈ past
  | .handle request principal => Admitted site past request principal
  | _ => True

variable {site : Site} {past past' : List Calls.Done}

/-! ## What stays known -/

theorem Consumed.mono {nonce verifier : String} (h : Consumed site past nonce verifier)
    (hsub : past ⊆ past') : Consumed site past' nonce verifier := by
  obtain ⟨now, state, hmem⟩ := h
  exact ⟨now, state, hsub hmem⟩

theorem Verified.mono {oidc : Oidc} {nonce verifier : String} {claims : Json}
    (h : Verified oidc past nonce verifier claims) (hsub : past ⊆ past') :
    Verified oidc past' nonce verifier claims := by
  obtain ⟨code, body, idToken, jwk, algorithm, hpost, hbody, halgorithm, hkeys, h⟩ := h
  obtain ⟨keys, hkeys, hjwk⟩ := hkeys
  exact ⟨code, body, idToken, jwk, algorithm, hsub hpost, hbody, halgorithm,
    ⟨keys, hsub hkeys, hjwk⟩, h⟩

theorem SignedIn.mono {i : SignIn} (h : SignedIn site past i) (hsub : past ⊆ past') :
    SignedIn site past' i := by
  cases h with
  | oidc oidc nonce verifier sub claims hoidc hconsumed hverified hsubject hi =>
    exact .oidc oidc nonce verifier sub claims hoidc (hconsumed.mono hsub) (hverified.mono hsub)
      hsubject hi
  | saml saml requestId verifier samlResponse identity hsaml hconsumed hprocess hi =>
    exact .saml saml requestId verifier samlResponse identity hsaml (hconsumed.mono hsub) hprocess
      hi
  | breakGlass password hhash hpassword hi => exact .breakGlass password hhash hpassword hi

/-! ## Single operations -/

theorem follows_askDb {c : DbCall} {Q : List Calls.Done → Except Exn c.Val → Prop}
    (hok : Allowed site past (.db c)) (hv : ∀ v, Q (past ++ [asked c (.ok v)]) (.ok v))
    (he : ∀ e : Fault, Q (past ++ [asked c (.error e)]) (.error e.exn)) :
    (askDb c).Follows (Allowed site) past Q := by
  refine ⟨hok, fun x => ?_⟩
  cases x with
  | ok v => exact hv v
  | error e => exact he e

/-- Nothing is known of how a program ends. -/
theorem follows_askDb_any {c : DbCall} (hok : Allowed site past (.db c)) :
    (askDb c).Follows (Allowed site) past fun _ _ => True :=
  follows_askDb hok (fun _ => True.intro) fun _ => True.intro

theorem follows_load {force : Bool} {Q : List Calls.Done → Except Exn Unit → Prop}
    (h : ∀ x r, Q (past ++ [⟨.load force, x⟩]) r) :
    (load force).Follows (Allowed site) past Q := by
  refine ⟨True.intro, fun (x : Except Exn Unit) => ?_⟩
  cases x with
  | ok v => exact h _ _
  | error e => exact h _ _

/-! ## The identity provider -/

/-- Whatever a program ends with, nothing has been taken back. -/
def Keeps (past : List Calls.Done) {α : Type} (Q : List Calls.Done → α → Prop)
    (past' : List Calls.Done) : Except Exn α → Prop
  | .ok a => past ⊆ past' ∧ Q past' a
  | .error _ => True

theorem findKey_mem {kid : Json} {keys : List Json} {key : Json}
    (h : findKey kid keys = .ok (some key)) : key ∈ keys := by
  unfold findKey at h
  dsimp only at h
  split_ifs at h with hobj hnull hone
  · exact (List.mem_filter.mp (List.mem_of_mem_head? (Except.ok.inj h))).1
  · cases h
  · exact (List.mem_filter.mp (List.mem_of_find?_eq_some (Except.ok.inj h))).1

/-- The key is one of those that the provider publishes. -/
theorem keyFor_follows (kid : Json) :
    (keyFor kid).Follows (Allowed site) past (Keeps past fun past' key =>
      ∃ keys : List Json, (⟨.keys, keys⟩ : Calls.Done) ∈ past' ∧ key ∈ keys) := by
  refine .bind (.op True.intro fun (keys : List Json) => .bind ?_)
  cases hfind : findKey kid keys with
  | error e => exact True.intro
  | ok key =>
    cases key with
    | some key => exact ⟨by simp, keys, by simp, findKey_mem hfind⟩
    | none =>
      refine .bind (follows_load fun x r => ?_)
      cases r with
      | error e => exact True.intro
      | ok _ =>
        refine .bind (.op True.intro fun (keys : List Json) => .bind ?_)
        cases hfind : findKey kid keys with
        | error e => exact True.intro
        | ok key =>
          cases key with
          | some key => exact ⟨by simp, keys, by simp, findKey_mem hfind⟩
          | none => exact True.intro

/-- A verified token carries the nonce. -/
theorem verifyIdToken_follows {oidc : Oidc} {idToken nonce : String} :
    (verifyIdToken site oidc idToken nonce).Follows (Allowed site) past (Keeps past
      fun past' claims => ∃ jwk algorithm, algorithm ∈ allowedAlgorithms ∧
        (∃ keys : List Json, (⟨.keys, keys⟩ : Calls.Done) ∈ past' ∧ jwk ∈ keys) ∧
        oidc.decode idToken jwk algorithm = .ok claims ∧ nonce ≠ "" ∧
        claims.getD "nonce" .null = .str nonce) := by
  refine .bind (follows_load fun x r => ?_)
  cases r with
  | error e => exact True.intro
  | ok _ =>
    dsimp only
    cases oidc.header idToken with
    | none => exact True.intro
    | some header =>
      dsimp only
      cases header.getD "alg" .null with
      | str algorithm =>
        refine .ite (fun _ => True.intro) fun halgorithm => .bind ((keyFor_follows _).mono ?_)
        intro past' r hr
        cases r with
        | error e => exact True.intro
        | ok jwk =>
          obtain ⟨hsub, hkeys⟩ := hr
          refine .bind ?_
          cases hclaims : oidc.claims idToken jwk algorithm with
          | error e => exact True.intro
          | ok claims =>
            refine .ite (fun _ => True.intro) fun hnonce => ?_
            push Not at hnonce
            have hdecode : oidc.decode idToken jwk algorithm = .ok claims := by
              unfold Oidc.claims at hclaims
              cases hdecode : oidc.decode idToken jwk algorithm with
              | ok found =>
                rw [hdecode] at hclaims
                cases hclaims
                rfl
              | error e =>
                rw [hdecode] at hclaims
                cases e <;> cases hclaims
            refine ⟨fun d hd => hsub (List.mem_append_left _ hd), jwk, algorithm, ?_, hkeys,
              hdecode, hnonce⟩
            exact not_not.mp halgorithm
      | _ => exact True.intro

theorem exchange_follows {oidc : Oidc} {code verifier nonce : String} :
    (exchange site oidc code verifier nonce).Follows (Allowed site) past
      (Keeps past fun past' claims => Verified oidc past' nonce verifier claims) := by
  refine .bind (follows_load fun x r => ?_)
  cases r with
  | error e => exact True.intro
  | ok _ =>
    refine .bind (.bind (.op True.intro fun (posted : Except Fault (Int × Option Json)) => ?_))
    cases posted with
    | error e => exact True.intro
    | ok answer =>
      obtain ⟨status, body⟩ := answer
      refine .ite (fun _ => True.intro) fun hstatus => ?_
      obtain rfl : status = 200 := not_not.mp hstatus
      cases body with
      | none => exact True.intro
      | some body =>
        refine .ite (fun _ => True.intro) fun _ => ?_
        cases htoken : body.getD "id_token" .null with
        | str idToken =>
          refine verifyIdToken_follows.mono fun past' r hr => ?_
          cases r with
          | error e => exact True.intro
          | ok claims =>
            obtain ⟨hsub, jwk, algorithm, halgorithm, hrest⟩ := hr
            exact ⟨fun d hd => hsub (by simp [hd]), code, body, idToken, jwk, algorithm,
              hsub (by simp), htoken, halgorithm, hrest⟩
        | _ => exact True.intro

/-! ## What opens no session -/

/-- The operation opens no session. -/
def Op.quiet (o : Op) : Prop := ¬ o.opens

theorem load_quiet (force : Bool) : (load force).Issues Op.quiet := by
  refine ⟨id, fun (x : Except Exn Unit) => ?_⟩
  cases x with
  | ok _ => exact True.intro
  | error e => exact True.intro

theorem keyFor_quiet (kid : Json) : (keyFor kid).Issues Op.quiet := by
  refine .bind ⟨id, fun _ => True.intro⟩ fun keys => .bind (Program.issues_ofExcept _) fun key => ?_
  cases key with
  | some key => exact True.intro
  | none =>
    refine .bind (load_quiet true) fun _ => .bind ⟨id, fun _ => True.intro⟩ fun keys =>
      .bind (Program.issues_ofExcept _) fun key => ?_
    cases key with
    | some key => exact True.intro
    | none => exact True.intro

theorem verifyIdToken_quiet (oidc : Oidc) (idToken nonce : String) :
    (verifyIdToken site oidc idToken nonce).Issues Op.quiet := by
  refine .bind (load_quiet false) fun _ => ?_
  cases oidc.header idToken with
  | none => exact True.intro
  | some header =>
    dsimp only
    cases header.getD "alg" .null with
    | str algorithm =>
      refine .ite (fun _ => ?_) fun _ => .bind (keyFor_quiet _) fun jwk =>
        .bind (Program.issues_ofExcept _) fun claims => .ite (fun _ => ?_) fun _ => ?_
      · exact True.intro
      · exact True.intro
      · exact True.intro
    | _ => exact True.intro

theorem exchange_quiet (oidc : Oidc) (code verifier nonce : String) :
    (exchange site oidc code verifier nonce).Issues Op.quiet := by
  have hpost : ((Program.op (E := Calls) (.postToken code verifier) :
      Prog (Except Fault (Int × Option Json))).bind orRaise).Issues Op.quiet := by
    refine .bind ⟨id, fun _ => True.intro⟩ fun answer => ?_
    cases answer with
    | ok a => exact True.intro
    | error e => exact True.intro
  refine .bind (load_quiet false) fun _ => .bind hpost fun answer => .ite (fun _ => ?_) fun _ => ?_
  · exact True.intro
  · cases answer.2 with
    | none => exact True.intro
    | some body =>
      refine .ite (fun _ => ?_) fun _ => ?_
      · exact True.intro
      · cases body.getD "id_token" .null with
        | str idToken => exact verifyIdToken_quiet oidc idToken nonce
        | _ => exact True.intro

/-- No session has been opened. -/
def Unopened (past : List Calls.Done) : Prop := ∀ d ∈ past, Op.quiet d.op

theorem Unopened.append {after : List Calls.Done} (h : Unopened past) (hafter : Unopened after) :
    Unopened (past ++ after) := by
  intro d hd
  rcases List.mem_append.mp hd with hd | hd
  · exact h d hd
  · exact hafter d hd

theorem Unopened.add (h : Unopened past) (d : Calls.Done) (hd : d.op.quiet) :
    Unopened (past ++ [d]) :=
  h.append fun e he => by
    cases List.mem_singleton.mp he
    exact hd

/-! ## Sign-in -/

theorem rolesForGroups_follows {groups : List String} (h : Unopened past) :
    (rolesForGroups site groups).Follows (Allowed site) past fun past' r =>
      ∀ granted, r = .ok granted → past ⊆ past' ∧ Unopened past' ∧ (granted ≠ [] →
        ∃ roles : List String, asked (.rolesForGroups site.tenantId (groups.take 500)) (.ok roles) ∈
          past' ∧ granted = validRoles roles) := by
  refine .ite (fun _ => ?_) fun _ => .bind (follows_askDb True.intro (fun roles => ?_) fun e => ?_)
  · rintro granted ⟨⟩
    exact ⟨List.Subset.refl _, h, fun hne => absurd rfl hne⟩
  · rintro granted ⟨⟩
    exact ⟨by simp, h.add _ id, fun _ => ⟨roles, by simp, rfl⟩⟩
  · rintro granted ⟨⟩

theorem openSession_follows {i : SignIn} {granted : List String} (h : Unopened past)
    (hi : SignedIn site past i) (hgranted : Granted site past i granted) :
    (openSession site i granted).Follows (Allowed site) past fun _ _ => True := by
  refine .bind (.op True.intro fun (userId : Nat) => .bind (.op True.intro fun (secret : String) =>
    .bind (.op True.intro fun (sessionId : Nat) => .bind (.op True.intro fun (now : Rat) =>
      .bind (.op True.intro fun (csrf : String) => ?_)))))
  refine .bind (follows_askDb ?_ (fun _ => ⟨True.intro, fun _ => True.intro⟩) fun e => True.intro)
  have hgrow : past ⊆ past ++ [⟨.uuid4, userId⟩] ++ [⟨.token, secret⟩] ++ [⟨.uuid4, sessionId⟩] ++
      [⟨.utcnow, now⟩] ++ [⟨.token, csrf⟩] := by
    intro d hd
    simp [hd]
  have hquiet : Unopened (past ++ [⟨.uuid4, userId⟩] ++ [⟨.token, secret⟩] ++
      [⟨.uuid4, sessionId⟩] ++ [⟨.utcnow, now⟩] ++ [⟨.token, csrf⟩]) :=
    ((((h.add ⟨.uuid4, userId⟩ id).add ⟨.token, secret⟩ id).add ⟨.uuid4, sessionId⟩ id).add
      ⟨.utcnow, now⟩ id).add ⟨.token, csrf⟩ id
  refine ⟨hquiet, i, granted, site.hex site.tenantId ++ "." ++ secret, csrf, now, hi.mono hgrow, ?_,
    rfl, rfl, rfl, rfl, rfl⟩
  obtain ⟨hne, hroles⟩ := hgranted
  refine ⟨hne, hroles.imp_right ?_⟩
  rintro ⟨hnone, roles, hmem, heq⟩
  exact ⟨hnone, roles, hgrow hmem, heq⟩

theorem refuseSignIn_follows {method reason : String} :
    (refuseSignIn site method reason).Follows (Allowed site) past fun _ _ => True :=
  follows_askDb_any True.intro

theorem establishSession_follows {i : SignIn} (h : Unopened past) (hi : SignedIn site past i) :
    (establishSession site i).Follows (Allowed site) past fun _ _ => True := by
  by_cases hroles : i.roles = []
  · have hgiven : establishSession site i = (rolesForGroups site i.groups).bind fun granted =>
        if granted.isEmpty then
          refuseSignIn site i.method ("no role is mapped to any group of " ++ i.subject)
        else openSession site i granted := by
      unfold establishSession
      rw [hroles]
      rfl
    rw [hgiven]
    refine .bind ((rolesForGroups_follows h).mono fun past' r hr => ?_)
    cases r with
    | error e => exact True.intro
    | ok granted =>
      obtain ⟨hsub, hquiet, hgranted⟩ := hr granted rfl
      refine .ite (fun _ => refuseSignIn_follows) fun hne => ?_
      have hne : granted ≠ [] := fun heq => hne (by rw [heq]; rfl)
      exact openSession_follows hquiet (hi.mono hsub) ⟨hne, Or.inr ⟨hroles, hgranted hne⟩⟩
  · have hgiven : establishSession site i = openSession site i i.roles := by
      have hfalse : ¬ i.roles.isEmpty = true := by simpa using hroles
      unfold establishSession
      rw [if_neg hfalse]
      exact if_neg hfalse
    rw [hgiven]
    exact openSession_follows h hi ⟨hroles, Or.inl ⟨hroles, rfl⟩⟩

theorem createLoginState_follows :
    (createLoginState site).Follows (Allowed site) [] fun _ _ => True := by
  refine .bind (.op True.intro fun (state : String) => .bind (.op True.intro fun (nonce : String) =>
    .bind (.op True.intro fun (verifier : String) => .bind (.op True.intro fun (now : Rat) =>
      .bind (.op True.intro fun (id : Nat) => ?_)))))
  have hprepared : Allowed site [⟨.token, state⟩, ⟨.token, nonce⟩, ⟨.token, verifier⟩,
      ⟨.utcnow, now⟩, ⟨.uuid4, id⟩] (.db (.createLoginState now
        { id, tenantId := site.tenantId, stateHash := site.sha256 state, nonce
          codeVerifier := verifier, expiresAt := now + 10 * 60 })) :=
    ⟨state, nonce, verifier, rfl, rfl⟩
  exact .bind (follows_askDb hprepared (fun _ => True.intro) fun e => True.intro)

/-- A state that is presented at the start of a request. -/
theorem consumeLoginState_follows {state : String} :
    (consumeLoginState site state).Follows (Allowed site) [] fun past r => Unopened past ∧
      ∀ nonce verifier, r = .ok (some (nonce, verifier)) → Consumed site past nonce verifier := by
  refine .ite (fun _ => ⟨fun d hd => absurd hd List.not_mem_nil, by rintro _ _ ⟨⟩⟩) fun _ =>
    .bind (.op True.intro fun (now : Rat) => follows_askDb True.intro (fun found => ?_) fun e => ?_)
  · refine ⟨?_, ?_⟩
    · intro d hd
      rcases List.mem_cons.mp hd with rfl | hd
      · exact id
      · cases List.mem_singleton.mp hd
        exact id
    · rintro nonce verifier ⟨⟩
      exact ⟨now, state, by simp⟩
  · refine ⟨?_, by rintro _ _ ⟨⟩⟩
    intro d hd
    rcases List.mem_cons.mp hd with rfl | hd
    · exact id
    · cases List.mem_singleton.mp hd
      exact id

theorem oidcCallback_follows {code state : String} :
    (oidcCallback site code state).Follows (Allowed site) [] fun _ _ => True := by
  unfold oidcCallback
  cases hoidc : site.oidc with
  | none => exact True.intro
  | some oidc =>
    refine .bind (consumeLoginState_follows.mono fun past r hr => ?_)
    cases r with
    | error e => exact True.intro
    | ok pending =>
      cases pending with
      | none => exact refuseSignIn_follows
      | some pending =>
        obtain ⟨nonce, verifier⟩ := pending
        have hconsumed := hr.2 nonce verifier rfl
        refine .ite (fun _ => refuseSignIn_follows) fun _ => .bind (.attempt ?_)
        refine (exchange_follows.adds (exchange_quiet oidc code verifier nonce)).mono ?_
        rintro past' r ⟨hverified, after, rfl, hafter⟩
        cases r with
        | error e =>
          cases e with
          | cancelled => exact True.intro
          | _ => exact refuseSignIn_follows
        | ok claims =>
          dsimp only
          cases hsub : claims.get? "sub" with
          | none => exact True.intro
          | some sub =>
            exact establishSession_follows (hr.1.append hafter)
              (.oidc oidc nonce verifier sub claims hoidc (hconsumed.mono (by simp)) hverified.2
                hsub rfl)

theorem samlLogin_follows : (samlLogin site).Follows (Allowed site) [] fun _ _ => True := by
  unfold samlLogin
  cases site.saml with
  | none => exact True.intro
  | some saml =>
    refine .bind (createLoginState_follows.mono fun past r _ => ?_)
    cases r with
    | error e => exact True.intro
    | ok pending =>
      refine .bind (.bind (.op True.intro fun (answer : Except Fault String) => ?_))
      cases answer with
      | error e => exact True.intro
      | ok requestId => exact follows_askDb_any True.intro

theorem samlAcs_follows {relayState samlResponse : String} :
    (samlAcs site relayState samlResponse).Follows (Allowed site) [] fun _ _ => True := by
  unfold samlAcs
  cases hsaml : site.saml with
  | none => exact True.intro
  | some saml =>
    refine .bind (consumeLoginState_follows.mono fun past r hr => ?_)
    cases r with
    | error e => exact True.intro
    | ok pending =>
      cases pending with
      | none => exact refuseSignIn_follows
      | some pending =>
        obtain ⟨requestId, verifier⟩ := pending
        have hconsumed := hr.2 requestId verifier rfl
        refine .ite (fun _ => refuseSignIn_follows) fun _ => ?_
        cases hprocess : saml.process samlResponse requestId with
        | error e =>
          cases e with
          | signIn message => exact refuseSignIn_follows
          | _ => exact True.intro
        | ok identity =>
          exact establishSession_follows hr.1
            (.saml saml requestId verifier samlResponse identity hsaml hconsumed hprocess rfl)

theorem breakGlass_follows {password : String} :
    (breakGlass site password).Follows (Allowed site) [] fun _ _ => True := by
  refine .ite (fun _ => True.intro) fun hhash => .ite (fun _ => refuseSignIn_follows)
    fun hpassword => .bind (follows_askDb True.intro (fun _ => ?_) fun e => True.intro)
  refine establishSession_follows (fun d hd => ?_) (.breakGlass password hhash ?_ rfl)
  · cases List.mem_singleton.mp hd
    exact id
  · simpa using hpassword

/-! ## Requests -/

theorem Known.mono {request : Request} {p : Principal} (h : Known site past request p)
    (hsub : past ⊆ past') : Known site past' request p := by
  cases h with
  | session cookie tenantId now s u hcookie htenant hfound hp =>
    exact .session cookie tenantId now s u hcookie htenant (hsub hfound) hp
  | token header presented tenantId now t hheader hfound hp =>
    exact .token header presented tenantId now t hheader (hsub hfound) hp
  | demo hopen hp => exact .demo hopen hp

theorem loadSession_follows {cookie : String} :
    (loadSession site cookie).Follows (Allowed site) past fun past' r => ∀ p, r = .ok (some p) →
      ∃ tenantId now s u, site.tenantOf (partition '.' cookie).1 = some tenantId ∧
        asked (.findSession tenantId (site.sha256 cookie) now (60 * site.sessionIdleMinutes))
          (.ok (some (s, u))) ∈ past' ∧ p = sessionPrincipal s u tenantId := by
  unfold loadSession
  cases htenant : site.tenantOf (partition '.' cookie).1 with
  | none => rintro p ⟨⟩
  | some tenantId =>
    refine .ite (fun _ => by rintro p ⟨⟩) fun _ => .bind (.op True.intro fun (now : Rat) =>
      .bind (follows_askDb (by simp [Allowed]) (fun row => ?_) fun e => by rintro p ⟨⟩))
    cases row with
    | none => rintro p ⟨⟩
    | some row =>
      obtain ⟨s, u⟩ := row
      refine .ite (fun _ => .bind (follows_askDb ?_ (fun _ => ?_) fun e => by rintro p ⟨⟩))
        fun _ => ?_
      · exact ⟨tenantId, site.sha256 cookie, s, u, by simp, rfl⟩
      · rintro p ⟨⟩
        exact ⟨tenantId, now, s, u, rfl, by simp, rfl⟩
      · rintro p ⟨⟩
        exact ⟨tenantId, now, s, u, rfl, by simp, rfl⟩

theorem loadApiToken_follows {presented : String} :
    (loadApiToken site presented).Follows (Allowed site) past fun past' r =>
      ∀ p, r = .ok (some p) → ∃ tenantId now t,
        asked (.findToken tenantId (site.sha256 presented) now) (.ok (some t)) ∈ past' ∧
        p = tokenPrincipal site t tenantId := by
  unfold loadApiToken
  refine .ite (fun _ => ?_) fun _ => ?_
  · rintro p ⟨⟩
  generalize partition '_' (presented.drop tokenPrefix.length).toString = parts
  dsimp only
  cases site.tenantOf parts.1 with
  | none => rintro p ⟨⟩
  | some tenantId =>
    refine .ite (fun _ => by rintro p ⟨⟩) fun _ => .bind (.op True.intro fun (now : Rat) =>
      .bind (follows_askDb (by simp [Allowed]) (fun row => ?_) fun e => by rintro p ⟨⟩))
    cases row with
    | none => rintro p ⟨⟩
    | some t =>
      refine .ite (fun _ => .bind (follows_askDb True.intro (fun _ => ?_) fun e => ?_)) fun _ => ?_
      · rintro p ⟨⟩
        exact ⟨tenantId, now, t, by simp, rfl⟩
      · rintro p ⟨⟩
      · rintro p ⟨⟩
        exact ⟨tenantId, now, t, by simp, rfl⟩

theorem authenticate_follows {request : Request} :
    (authenticate site request).Follows (Allowed site) past fun past' r =>
      ∀ p, r = .ok (some p) → Known site past' request p := by
  unfold authenticate
  cases hheader : request.authorization with
  | some header =>
    dsimp only
    cases hbearer : bearer header with
    | none => rintro p ⟨⟩
    | some presented =>
      refine loadApiToken_follows.mono fun past' r hr p hp => ?_
      obtain ⟨tenantId, now, t, hfound, heq⟩ := hr p hp
      exact .token header presented tenantId now t ⟨hheader, hbearer⟩ hfound heq
  | none =>
    dsimp only
    cases hcookie : request.cookie.filter (· ≠ "") with
    | some cookie =>
      refine loadSession_follows.mono fun past' r hr p hp => ?_
      obtain ⟨tenantId, now, s, u, htenant, hfound, heq⟩ := hr p hp
      exact .session cookie tenantId now s u ⟨hheader, (Option.filter_eq_some_iff.mp hcookie).1⟩
        htenant hfound heq
    | none =>
      intro p hp
      cases hopen : site.demoOpen with
      | false =>
        rw [hopen] at hp
        cases hp
      | true =>
        rw [hopen] at hp
        cases hp
        exact .demo hopen rfl

/-- What `authorize` lets through is admitted. -/
theorem authorize_follows {request : Request} :
    (authorize site request).Follows (Allowed site) past fun past' r =>
      ∀ principal, r = .ok principal → Admitted site past' request principal := by
  unfold authorize
  cases haccess : request.route.access with
  | none => rintro principal ⟨⟩
  | some access =>
    cases access
    case isPublic =>
      rintro principal ⟨⟩
      exact Or.inl ⟨haccess, rfl⟩
    -- a route that asks for a sign-in, and one that asks for a permission
    all_goals
      refine .bind (authenticate_follows.mono fun past' r hr => ?_)
      cases r with
      | error e => rintro principal ⟨⟩
      | ok found =>
        cases found with
        | none => rintro principal ⟨⟩
        | some p =>
          dsimp only
          split
          next permission hmissing =>
            refine .bind (follows_askDb True.intro (fun _ => ?_) fun e => by rintro principal ⟨⟩)
            rintro principal ⟨⟩
          next hmissing =>
            cases hcsrf : checkCsrf request p with
            | error e => rintro principal ⟨⟩
            | ok _ =>
              rintro principal ⟨⟩
              exact Or.inr ⟨_, p, haccess, rfl, hmissing, hcsrf, hr p rfl⟩

/-- A principal that has a session was looked up by its cookie. -/
theorem Known.found {request : Request} {p : Principal} {id : Nat} (h : Known site past request p)
    (hid : p.sessionId = some id) : ∃ tokenHash now idle s u,
      asked (.findSession p.tenantId tokenHash now idle) (.ok (some (s, u))) ∈ past ∧
        s.id = id := by
  cases h with
  | session cookie tenantId now s u hcookie htenant hfound hp =>
    subst hp
    cases hid
    exact ⟨_, now, _, s, u, hfound, rfl⟩
  | token header presented tenantId now t hheader hfound hp =>
    subst hp
    cases hid
  | demo hopen hp =>
    subst hp
    cases hid

theorem createApiToken_follows {tenantId name : String} {permissions : List String} {days : Int}
    {actor : Audit.Actor}
    (h : actor = cliActor ∨ ∃ request p, (⟨.handle request (some p), ()⟩ : Calls.Done) ∈ past ∧
      p.has .tokensManage = true ∧ p.tenantId = tenantId ∧ actor = p.actor ∧
      permissions ⊆ tokenPermissions.map Permission.value) :
    (createApiToken site tenantId name permissions days actor).Follows (Allowed site) past
      fun _ _ => True := by
  refine .ite (fun _ => True.intro) fun _ => .ite (fun _ => True.intro) fun _ =>
    .ite (fun _ => True.intro) fun _ => .bind (.op True.intro fun (secret : String) =>
      .bind (.op True.intro fun (id : Nat) => .bind (.op True.intro fun (now : Rat) =>
        follows_askDb_any ⟨?_, ?_⟩)))
  · exact fun name hname => (mem_knownNames.mp hname).2
  · refine h.imp_right ?_
    rintro ⟨request, p, hhandle, hmanage, htenant, hactor, hsub⟩
    exact ⟨request, p, by simp [hhandle], hmanage, htenant, hactor,
      fun name hname => hsub (mem_knownNames.mp hname).1⟩

theorem revokeApiToken_follows {tenantId : String} {id : Nat} {actor : Audit.Actor} :
    (revokeApiToken site tenantId id actor).Follows (Allowed site) past fun _ _ => True :=
  .bind (.op True.intro fun (_ : Rat) =>
    .bind (follows_askDb True.intro (fun _ => True.intro) fun _ => True.intro))

theorem setRoleMapping_follows {tenantId group role : String} {actor : Audit.Actor} {grant : Bool} :
    (setRoleMapping tenantId group role actor grant).Follows (Allowed site) past
      fun _ _ => True := by
  refine .ite (fun _ => True.intro) fun _ => .ite (fun _ => True.intro) fun _ =>
    .bind (follows_askDb True.intro (fun _ => True.intro) fun e => True.intro)

/-- Who lacks no permission for a route that asks for one has it. -/
theorem has_of_missing {permission : Permission} {p : Principal}
    (h : missing (.permission permission) p = none) : p.has permission = true := by
  unfold missing at h
  by_contra hnot
  dsimp only at h
  rw [if_neg hnot] at h
  cases h

theorem handler_follows {request : Request} {p : Principal}
    (hadmitted : Admitted site past request (some p))
    (hhandle : (⟨.handle request (some p), ()⟩ : Calls.Done) ∈ past) :
    (handler site request.route p).Follows (Allowed site) past fun _ _ => True := by
  obtain ⟨access, q, haccess, hp, hmissing, -, hknown⟩ :=
    hadmitted.resolve_left fun h => by cases h.2
  cases hp
  cases hroute : request.route with
  | logout =>
    show (revokeSession p).Follows (Allowed site) past fun _ _ => True
    unfold revokeSession
    cases hid : p.sessionId with
    | none => exact True.intro
    | some id =>
      obtain ⟨tokenHash, now, idle, s, u, hfound, hs⟩ := hknown.found hid
      exact .bind (.op True.intro fun (at' : Rat) =>
        follows_askDb_any ⟨tokenHash, now, idle, s, u, by simp [hfound], hs⟩)
  | createToken name permissions days =>
    rw [hroute] at haccess
    cases haccess
    refine .ite (fun _ => True.intro) fun hsub => createApiToken_follows (Or.inr ?_)
    exact ⟨request, p, hhandle, has_of_missing hmissing, rfl, rfl, not_not.mp hsub⟩
  | revokeToken id => exact revokeApiToken_follows
  | setMapping group role grant => exact setRoleMapping_follows
  | other access => exact True.intro

theorem serve_follows {request : Request} :
    (serve site request).Follows (Allowed site) [] fun _ _ => True := by
  refine .bind (authorize_follows.mono fun past r hr => ?_)
  cases r with
  | error e => exact True.intro
  | ok principal =>
    have hadmitted := hr principal rfl
    refine .bind (.op hadmitted fun (_ : Unit) => ?_)
    cases principal with
    | none => exact True.intro
    | some p =>
      refine handler_follows (hadmitted.imp id ?_) (by simp)
      rintro ⟨access, q, haccess, hq, hmissing, hcsrf, hknown⟩
      exact ⟨access, q, haccess, hq, hmissing, hcsrf, hknown.mono (by simp)⟩

theorem oidcLogin_follows : (oidcLogin site).Follows (Allowed site) [] fun _ _ => True := by
  unfold oidcLogin
  cases site.oidc with
  | none => exact True.intro
  | some oidc =>
    refine .bind (createLoginState_follows.mono fun past r _ => ?_)
    cases r with
    | error e => exact True.intro
    | ok _ => exact follows_load fun _ _ => True.intro

/-- **Each program keeps to what is allowed.** -/
theorem serves_follows {p : Prog Unit} (h : Serves site p) :
    p.Follows (Allowed site) [] fun _ _ => True := by
  cases h with
  | request request => exact serve_follows
  | oidcLogin => exact oidcLogin_follows
  | oidcCallback code state => exact oidcCallback_follows
  | samlLogin => exact samlLogin_follows
  | samlAcs relayState samlResponse => exact samlAcs_follows
  | breakGlass password => exact breakGlass_follows
  | cliToken tenantId name permissions days => exact createApiToken_follows (Or.inl rfl)
  | cliRevoke tenantId id => exact revokeApiToken_follows
  | cliRoles tenantId group role grant => exact setRoleMapping_follows

end Auth
end L1Agent
