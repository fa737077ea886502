import L1Agent.Auth.Changes
import L1Agent.Auth.Conduct
import L1Agent.Library.Answers
import L1Agent.Library.Drawn

/-! # What the tables say of what has happened

`Kept` ties the tables to the history of a run that begins with empty ones: a session was opened by
a sign-in and has been in use since, a token was made by who may make one, and the state of a
sign-in was made here and is consumed once.

What an operation does is read off its effect (`step_tables`), and the rest is what its own thread
has done before it, which `Auth/Conduct.lean` tells.  The invariant holds throughout every such run
(`kept_of_reaches`).
-/
namespace L1Agent
namespace Auth
open Interleaving Rows

/-! ## Steps -/

section Steps
variable {c : DbCall} {o : Op} {ch : Choice} {s s' : State}

theorem transact_ok {v : c.Val} (h : transact c ch s = (.ok v, s')) :
    c.run s.tables = some (v, s'.tables) := by
  unfold transact at h
  split at h
  · cases h
  · rename_i hrun
    split at h
    · cases h
      exact hrun
    · cases h

/-- A transaction takes effect, or it leaves the tables as they are. -/
theorem transact_cases {x : Except Fault c.Val} (h : transact c ch s = (x, s')) :
    s'.issued = s.issued ∧
      (s'.tables = s.tables ∨ ∃ v, c.run s.tables = some (v, s'.tables)) := by
  unfold transact at h
  split at h
  · cases h
    exact ⟨rfl, Or.inl rfl⟩
  · rename_i v tables hrun
    split at h
    · cases h
      exact ⟨rfl, Or.inr ⟨v, hrun⟩⟩
    · cases h
      by_cases hlanded : ch.landed = true
      · rw [if_pos hlanded]
        exact ⟨rfl, Or.inr ⟨v, hrun⟩⟩
      · rw [if_neg hlanded]
        exact ⟨rfl, Or.inl rfl⟩

/-- **What an operation does to the tables.** -/
theorem step_tables {x : o.Ans} (h : step o ch s = some (x, s')) :
    s'.tables = s.tables ∨ ∃ c v, o = .db c ∧ c.run s.tables = some (v, s'.tables) := by
  cases o with
  | db c =>
    obtain ⟨-, hsame | ⟨v, hrun⟩⟩ :=
      transact_cases (Option.some.inj h : transact c ch s = (x, s'))
    · exact Or.inl hsame
    · exact Or.inr ⟨c, v, rfl, hrun⟩
  | uuid4 =>
    unfold step at h
    dsimp only at h
    split_ifs at h
    cases h
    exact Or.inl rfl
  | _ => exact Or.inl (congrArg (fun r => r.2.tables) (Option.some.inj h)).symm

theorem step_next {x : o.Ans} (h : step o ch s = some (x, s')) : s.tables.Next s'.tables := by
  obtain hsame | ⟨c, v, -, hrun⟩ := step_tables h
  · rw [hsame]
    exact .refl _
  · exact (run_effect hrun).next

theorem step_sound {x : o.Ans} (h : step o ch s = some (x, s')) (hs : s.tables.Sound) :
    s'.tables.Sound := by
  obtain hsame | ⟨c, v, -, hrun⟩ := step_tables h
  · rw [hsame]
    exact hs
  · exact (run_effect hrun).sound hs

theorem step_issued {x : o.Ans} (h : step o ch s = some (x, s')) :
    ∀ id, id ∈ s.issued → id ∈ s'.issued := by
  intro id hid
  cases o with
  | db c =>
    rw [(transact_cases (Option.some.inj h : transact c ch s = (x, s'))).1]
    exact hid
  | uuid4 =>
    unfold step at h
    dsimp only at h
    split_ifs at h
    cases h
    exact List.mem_cons_of_mem _ hid
  | _ =>
    have hsame := congrArg (fun r => r.2.issued) (Option.some.inj h)
    exact hsame ▸ hid

/-- An id is given that was not given before. -/
theorem step_uuid4 {id : Nat} (h : step .uuid4 ch s = some (id, s')) :
    id ∉ s.issued ∧ id ∈ s'.issued := by
  unfold step at h
  dsimp only at h
  split_ifs at h with hin
  cases h
  exact ⟨hin, List.mem_cons_self⟩

end Steps

/-! ## Events -/

variable {site : Site}

/-- What an event does, and what it is answered. -/
abbrev deed (ev : (service site).Event) : Calls.Done := ⟨ev.op, ev.answer⟩

/-- The event is what came of its operation. -/
def Ran (ev : (service site).Event) : Prop :=
  step ev.op ev.choice ev.before = some (ev.answer, ev.after)

/-- What a transaction that is answered has done. -/
theorem Ran.effect {ev : (service site).Event} (h : Ran ev) {c : DbCall} {v : c.Val}
    (hdone : deed ev = asked c (.ok v)) : c.run ev.before.tables = some (v, ev.after.tables) := by
  obtain ⟨t, o, ch, before, x, after⟩ := ev
  cases hdone
  exact transact_ok (Option.some.inj h : transact c ch before = (.ok v, after))

/-- A session that is found is a live row, and the user is its own. -/
theorem Ran.found {ev : (service site).Event} (h : Ran ev) {tenantId tokenHash : String}
    {now idle : Rat} {row : Session} {u : User}
    (hdone : deed ev = asked (.findSession tenantId tokenHash now idle) (.ok (some (row, u)))) :
    row ∈ ev.before.tables.sessions ∧ row.live tenantId tokenHash now idle = true ∧
      u ∈ ev.before.tables.users ∧ u.id = row.userId := by
  have hrun := congrArg Prod.fst (Option.some.inj (h.effect hdone))
  obtain ⟨s, hs, hjoined⟩ := Option.bind_eq_some_iff.mp hrun
  obtain ⟨u', hu, heq⟩ := Option.map_eq_some_iff.mp hjoined
  cases heq
  have hlive := List.find?_some hs
  exact ⟨List.mem_of_find?_eq_some hs, hlive, List.mem_of_find?_eq_some hu,
    by simpa using List.find?_some hu⟩

theorem Ran.foundToken {ev : (service site).Event} (h : Ran ev) {tenantId tokenHash : String}
    {now : Rat} {row : ApiToken}
    (hdone : deed ev = asked (.findToken tenantId tokenHash now) (.ok (some row))) :
    row ∈ ev.before.tables.tokens ∧ row.live tenantId tokenHash now = true := by
  have hrun : ev.before.tables.tokens.find? (fun t => t.live tenantId tokenHash now) = some row :=
    congrArg Prod.fst (Option.some.inj (h.effect hdone))
  have hlive := List.find?_some hrun
  exact ⟨List.mem_of_find?_eq_some hrun, hlive⟩

/-- The event makes the state of a sign-in, which it is then good for ten minutes. -/
def Starts (ev : (service site).Event) (l : LoginState) : Prop :=
  ∃ now row, ev.op = .db (.createLoginState now row) ∧ l = { row with nonce := l.nonce } ∧
    row.expiresAt = now + 10 * 60

/-- The event consumes the state of a sign-in. -/
def Consumes (ev : (service site).Event) (l : LoginState) : Prop :=
  ∃ now stateHash, ev.op = .db (.consumeLoginState now site.tenantId stateHash) ∧
    l ∈ ev.before.tables.loginStates ∧ l.usable site.tenantId stateHash now = true ∧
    l ∉ ev.after.tables.loginStates

/-- A state that is consumed was there, with what it is answered with. -/
theorem Ran.consumes {ev : (service site).Event} (h : Ran ev) {now : Rat}
    {stateHash nonce verifier : String}
    (hdone : deed ev = asked (.consumeLoginState now site.tenantId stateHash)
      (.ok (some (nonce, verifier)))) :
    ∃ l, Consumes ev l ∧ l.nonce = nonce ∧ l.codeVerifier = verifier := by
  have hrun := Option.some.inj (h.effect hdone)
  obtain ⟨l, hfind, heq⟩ := Option.map_eq_some_iff.mp (congrArg Prod.fst hrun)
  have hafter := congrArg (fun r => r.2.loginStates) hrun
  have husable : l.usable site.tenantId stateHash now = true := by
    simpa using List.find?_some hfind
  cases heq
  refine ⟨l, ⟨now, stateHash, congrArg Signature.Done.op hdone, List.mem_of_find?_eq_some hfind,
    husable, fun hmem => ?_⟩, rfl, rfl⟩
  rw [← hafter] at hmem
  have hkept := (List.mem_filter.mp hmem).2
  rw [husable] at hkept
  cases hkept

/-- **A session is in use**: it has been opened at that reading, or found at that one, within the
idle limit of an earlier reading at which it was in use. -/
inductive InUse (tr : List (service site).Event) (id : Nat) : Rat → Prop where
  | opened {o : (service site).Event} {user : User} {session : Session} {entry : Entry}
      (ho : o ∈ tr) (hop : o.op = .db (.openSession user session entry)) (hid : session.id = id) :
      InUse tr id session.createdAt
  | found {f : (service site).Event} {tenantId tokenHash : String} {now seen : Rat} {row : Session}
      {u : User} (hseen : InUse tr id seen) (hf : f ∈ tr)
      (hfound : deed f = asked (.findSession tenantId tokenHash now (60 * site.sessionIdleMinutes))
        (.ok (some (row, u))))
      (hid : row.id = id) (hgap : now - 60 * site.sessionIdleMinutes < seen) : InUse tr id now

theorem InUse.mono {tr tr' : List (service site).Event} {id : Nat} {seen : Rat}
    (h : InUse tr id seen) (hsub : tr ⊆ tr') : InUse tr' id seen := by
  induction h with
  | opened ho hop hid => exact .opened (hsub ho) hop hid
  | found hseen hf hfound hid hgap ih => exact .found ih (hsub hf) hfound hid hgap

/-! ## The invariant -/

/-- A session was opened by this event, for the user that its row names. -/
def Session.From (row : Session) (users : List User) (o : (service site).Event) : Prop :=
  ∃ user session entry uid, o.op = .db (.openSession user session entry) ∧
    Session.Next { session with userId := uid } row ∧ ∃ u ∈ users, u.id = uid ∧ u.For user

/-- A token was made by this event. -/
def ApiToken.From (row : ApiToken) (o : (service site).Event) : Prop :=
  ∃ new entry, o.op = .db (.createToken new entry) ∧ new.Next row

/-- **What the tables and the history agree on.** -/
structure Kept (s : State) (tr : List (service site).Event) : Prop where
  sound : s.tables.Sound
  opened : ∀ row ∈ s.tables.sessions, ∃ o ∈ tr, row.From s.tables.users o
  used : ∀ row ∈ s.tables.sessions, InUse tr row.id row.lastSeenAt
  /-- What is found is in use. -/
  found : ∀ f ∈ tr, ∀ tenantId tokenHash now row u,
    deed f = asked (.findSession tenantId tokenHash now (60 * site.sessionIdleMinutes))
      (.ok (some (row, u))) → InUse tr row.id now
  made : ∀ row ∈ s.tables.tokens, ∃ o ∈ tr, row.From o
  started : ∀ l ∈ s.tables.loginStates, ∃ o ∈ tr, Starts o l
  consumed : ∀ e ∈ tr, ∀ l, Consumes e l → ∃ o ∈ tr, Starts o l
  /-- What has been consumed does not come back. -/
  spent : ∀ l ∈ s.tables.loginStates, ∀ e ∈ tr, ∀ l', Consumes e l' → l'.id ≠ l.id

theorem kept_start {s : State} (h : s.tables = {}) :
    Kept s ([] : List (service site).Event) := by
  obtain ⟨tables, issued⟩ := s
  cases h
  have hnone : ∀ {α : Type} (x : α), x ∉ ([] : List α) := fun _ => List.not_mem_nil
  exact ⟨⟨.nil, .nil, .nil, .nil, fun u hu => absurd hu (hnone u)⟩,
    fun row hrow => absurd hrow (hnone row), fun row hrow => absurd hrow (hnone row),
    fun f hf => absurd hf (hnone f), fun row hrow => absurd hrow (hnone row),
    fun l hl => absurd hl (hnone l), fun e he => absurd he (hnone e),
    fun l hl => absurd hl (hnone l)⟩

section Step
variable {pre : List (service site).Event} {ev : (service site).Event}

theorem kept_opened (hk : Kept ev.before pre) (hran : Ran ev) :
    ∀ row ∈ ev.after.tables.sessions, ∃ o ∈ pre ++ [ev], row.From ev.after.tables.users o := by
  have hcarried := (step_next hran).users
  have hold : ∀ row ∈ ev.before.tables.sessions, ∀ row', row.Next row' →
      ∃ o ∈ pre ++ [ev], row'.From ev.after.tables.users o := by
    intro row hrow row' hnext
    obtain ⟨o, ho, user, session, entry, uid, hop, hfrom, u, hu, hid, hfor⟩ := hk.opened row hrow
    obtain ⟨u', hu', hu''⟩ := hcarried u hu
    exact ⟨o, List.mem_append_left _ ho, user, session, entry, uid, hop, hfrom.trans hnext, u', hu',
      hu''.id_eq.trans hid, hu''.for hfor⟩
  intro row hrow
  obtain hsame | ⟨c, v, hop, hrun⟩ := step_tables hran
  · rw [hsame] at hrow
    exact hold row hrow row (.refl row)
  · obtain ⟨-, f, hf, hmove⟩ | ⟨user, session, entry, uid, rfl, hopened⟩ := (run_effect hrun).people
    · rw [hf] at hrow
      obtain ⟨row₀, hrow₀, rfl⟩ := List.mem_map.mp hrow
      exact hold row₀ hrow₀ _ (hmove row₀).next
    · rw [hopened.sessions] at hrow
      rcases List.mem_append.mp hrow with hrow | hrow
      · exact hold row hrow row (.refl row)
      · cases List.mem_singleton.mp hrow
        exact ⟨ev, by simp, user, session, entry, uid, hop, .refl _,
          ((upsertUser_cases hopened.upserted).2.1 hk.sound.fits).2⟩

/-- A session that is noted as used has been found by the same request at the same reading. -/
theorem kept_used (hk : Kept ev.before pre) (hran : Ran ev)
    (hallowed : Allowed site (System.own ev.thread pre) ev.op) :
    ∀ row ∈ ev.after.tables.sessions, InUse (pre ++ [ev]) row.id row.lastSeenAt := by
  have hold : ∀ row ∈ ev.before.tables.sessions, InUse (pre ++ [ev]) row.id row.lastSeenAt :=
    fun row hrow => (hk.used row hrow).mono (List.subset_append_left _ _)
  intro row hrow
  obtain hsame | ⟨c, v, hop, hrun⟩ := step_tables hran
  · rw [hsame] at hrow
    exact hold row hrow
  rw [hop] at hallowed
  obtain ⟨-, f, hf, hmove⟩ | ⟨user, session, entry, uid, rfl, hopened⟩ := (run_effect hrun).people
  · rw [hf] at hrow
    obtain ⟨row₀, hrow₀, rfl⟩ := List.mem_map.mp hrow
    have hmoved := hmove row₀
    generalize f row₀ = row' at hmoved
    cases hmoved with
    | stay => exact hold row₀ hrow₀
    | revoke now entry => exact hold row₀ hrow₀
    | touch now =>
      -- the request has found the session before it notes the use, and at the same reading
      obtain ⟨tenantId, tokenHash, s, u, hfound, hid⟩ := hallowed
      obtain ⟨ch, before, after, hmem⟩ := System.mem_own hfound
      have hinUse := hk.found _ hmem tenantId tokenHash now s u rfl
      rw [hid] at hinUse
      exact hinUse.mono (List.subset_append_left _ _)
  · rw [hopened.sessions] at hrow
    rcases List.mem_append.mp hrow with hrow | hrow
    · exact hold row hrow
    · cases List.mem_singleton.mp hrow
      obtain ⟨-, i, granted, cookie, csrf, now, -, -, hsession, -⟩ := hallowed
      have hseen : session.lastSeenAt = session.createdAt := by rw [hsession]; rfl
      show InUse (pre ++ [ev]) session.id session.lastSeenAt
      rw [hseen]
      exact .opened (by simp) hop rfl

theorem kept_found (hk : Kept ev.before pre) (hran : Ran ev) :
    ∀ f ∈ pre ++ [ev], ∀ tenantId tokenHash now row u,
      deed f = asked (.findSession tenantId tokenHash now (60 * site.sessionIdleMinutes))
        (.ok (some (row, u))) → InUse (pre ++ [ev]) row.id now := by
  intro f hf tenantId tokenHash now row u hdone
  rcases List.mem_append.mp hf with hf | hf
  · exact (hk.found f hf tenantId tokenHash now row u hdone).mono (List.subset_append_left _ _)
  · cases List.mem_singleton.mp hf
    obtain ⟨hrow, hlive, -⟩ := hran.found hdone
    have hgap : now - 60 * site.sessionIdleMinutes < row.lastSeenAt :=
      (of_decide_eq_true hlive).2.2.2.2
    exact .found ((hk.used row hrow).mono (List.subset_append_left _ _)) (by simp) hdone rfl hgap

theorem kept_made (hk : Kept ev.before pre) (hran : Ran ev) :
    ∀ row ∈ ev.after.tables.tokens, ∃ o ∈ pre ++ [ev], row.From o := by
  have hold : ∀ row ∈ ev.before.tables.tokens, ∀ row', row.Next row' →
      ∃ o ∈ pre ++ [ev], row'.From o := by
    intro row hrow row' hnext
    obtain ⟨o, ho, new, entry, hop, hfrom⟩ := hk.made row hrow
    exact ⟨o, List.mem_append_left _ ho, new, entry, hop, hfrom.trans hnext⟩
  intro row hrow
  obtain hsame | ⟨c, v, hop, hrun⟩ := step_tables hran
  · rw [hsame] at hrow
    exact hold row hrow row (.refl row)
  · obtain ⟨f, hf, hmove⟩ | ⟨new, entry, rfl, -, hinsert⟩ := (run_effect hrun).tokens
    · rw [hf] at hrow
      obtain ⟨row₀, hrow₀, rfl⟩ := List.mem_map.mp hrow
      exact hold row₀ hrow₀ _ (hmove row₀).next
    · rw [hinsert] at hrow
      rcases List.mem_append.mp hrow with hrow | hrow
      · exact hold row hrow row (.refl row)
      · cases List.mem_singleton.mp hrow
        exact ⟨ev, by simp, row, entry, hop, .refl _⟩

/-- The state of a sign-in was there before, or is made now. -/
theorem state_origin (hran : Ran ev) {l : LoginState} (hl : l ∈ ev.after.tables.loginStates) :
    (∃ l₀ ∈ ev.before.tables.loginStates, (l₀.id = l.id ∧ l = { l₀ with nonce := l.nonce }) ∧
      ((∃ now tenantId stateHash, ev.op = .db (.consumeLoginState now tenantId stateHash)) →
        l₀ = l)) ∨
    ∃ now, ev.op = .db (.createLoginState now l) := by
  obtain hsame | ⟨c, v, hop, hrun⟩ := step_tables hran
  · rw [hsame] at hl
    exact Or.inl ⟨l, hl, ⟨rfl, rfl⟩, fun _ => rfl⟩
  · obtain ⟨kept, ⟨f, hf, hmove⟩ | ⟨now, row, rfl, -, hinsert⟩⟩ := (run_effect hrun).states
    · rw [hf] at hl
      obtain ⟨l₀, hl₀, rfl⟩ := List.mem_map.mp hl
      have hmem := (List.mem_filter.mp hl₀).1
      left
      have hmoved := hmove l₀
      generalize f l₀ = l' at hmoved
      cases hmoved with
      | stay => exact ⟨l₀, hmem, ⟨rfl, rfl⟩, fun _ => rfl⟩
      | bind requestId =>
        refine ⟨l₀, hmem, ⟨rfl, rfl⟩, ?_⟩
        rintro ⟨now, tenantId, stateHash, hconsume⟩
        rw [hop] at hconsume
        cases hconsume
    · rw [hinsert] at hl
      rcases List.mem_append.mp hl with hl | hl
      · exact Or.inl ⟨l, (List.mem_filter.mp hl).1, ⟨rfl, rfl⟩, fun _ => rfl⟩
      · cases List.mem_singleton.mp hl
        exact Or.inr ⟨now, hop⟩

theorem kept_started (hk : Kept ev.before pre) (hran : Ran ev)
    (hallowed : Allowed site (System.own ev.thread pre) ev.op) :
    ∀ l ∈ ev.after.tables.loginStates, ∃ o ∈ pre ++ [ev], Starts o l := by
  intro l hl
  obtain ⟨l₀, hl₀, ⟨-, hsame⟩, -⟩ | ⟨now, hop⟩ := state_origin hran hl
  · obtain ⟨o, ho, now, row, hop, hrow, hexpires⟩ := hk.started l₀ hl₀
    refine ⟨o, List.mem_append_left _ ho, now, row, hop, ?_, hexpires⟩
    rw [hsame, hrow]
  · rw [hop] at hallowed
    obtain ⟨state, nonce, verifier, -, hrow⟩ := hallowed
    exact ⟨ev, by simp, now, l, hop, rfl, by rw [hrow]⟩

theorem kept_consumed (hk : Kept ev.before pre) :
    ∀ e ∈ pre ++ [ev], ∀ l, Consumes e l → ∃ o ∈ pre ++ [ev], Starts o l := by
  intro e he l hconsumes
  have hpre : ∃ o ∈ pre, Starts o l := by
    rcases List.mem_append.mp he with he | he
    · exact hk.consumed e he l hconsumes
    · cases List.mem_singleton.mp he
      obtain ⟨now, stateHash, -, hl, -⟩ := hconsumes
      exact hk.started l hl
  obtain ⟨o, ho, hstarts⟩ := hpre
  exact ⟨o, List.mem_append_left _ ho, hstarts⟩

/-- **What is consumed is spent**, where the ids of new states are new. -/
theorem kept_spent (hk : Kept ev.before pre) (hran : Ran ev)
    (hnew : ∀ o ∈ pre, ∀ l now row, Starts o l → ev.op = .db (.createLoginState now row) →
      row.id ≠ l.id) :
    ∀ l ∈ ev.after.tables.loginStates, ∀ e ∈ pre ++ [ev], ∀ l', Consumes e l' → l'.id ≠ l.id := by
  intro l hl e he l' hconsumes heq
  obtain ⟨l₀, hl₀, ⟨hid, -⟩, hkept⟩ | ⟨now, hop⟩ := state_origin hran hl
  · rcases List.mem_append.mp he with he | he
    · exact hk.spent l₀ hl₀ e he l' hconsumes (heq.trans hid.symm)
    · cases List.mem_singleton.mp he
      obtain ⟨now, stateHash, hop, hl', -, hgone⟩ := hconsumes
      obtain rfl : l' = l₀ :=
        List.inj_on_of_nodup_map hk.sound.states hl' hl₀ (heq.trans hid.symm)
      rw [hkept ⟨now, site.tenantId, stateHash, hop⟩] at hgone
      exact hgone hl
  · rcases List.mem_append.mp he with he | he
    · obtain ⟨o, ho, hstarts⟩ := hk.consumed e he l' hconsumes
      exact hnew o ho l' now l hstarts hop heq.symm
    · cases List.mem_singleton.mp he
      obtain ⟨now', stateHash, hconsume, -⟩ := hconsumes
      rw [hop] at hconsume
      cases hconsume

end Step

/-! ## Runs -/

section Runs
variable {cond : (service site).recorded.Cond} {s : State}
  {d : Config Calls Exn (State × List (service site).Event)}

theorem ran_of_reaches (hr : (service site).recorded.Reaches cond (Config.idle (s, [])) d) :
    System.Each (fun _ ev => Ran ev) d.shared.2 :=
  fun pre ev post hsplit => (System.recorded_each hr pre ev post hsplit).2

theorem allowed_of_reaches (hr : (service site).recorded.Reaches cond (Config.idle (s, [])) d) :
    System.Each (fun pre ev => Allowed site (System.own ev.thread pre) ev.op) d.shared.2 :=
  System.recorded_follows (fun _ hp => serves_follows hp) hr

/-- The state of a sign-in is made by one event: it has an id that its own request has drawn. -/
theorem started_once (hr : (service site).recorded.Reaches cond (Config.idle (s, [])) d)
    {pre post : List (service site).Event} {ev o : (service site).Event}
    (hsplit : d.shared.2 = pre ++ ev :: post) (ho : o ∈ pre) {l row : LoginState} {now : Rat}
    (hstarts : Starts o l) (hop : ev.op = .db (.createLoginState now row)) : row.id ≠ l.id := by
  intro heq
  obtain ⟨p, q, rfl⟩ := List.append_of_mem ho
  obtain ⟨now', row', hop', hl, -⟩ := hstarts
  have hfirst : d.shared.2 = p ++ o :: (q ++ ev :: post) := by rw [hsplit]; simp
  have hallowed : Allowed site (System.own ev.thread (p ++ o :: q)) ev.op :=
    allowed_of_reaches hr _ _ _ hsplit
  have hallowed' : Allowed site (System.own o.thread p) o.op :=
    allowed_of_reaches hr _ _ _ hfirst
  rw [hop] at hallowed
  rw [hop'] at hallowed'
  obtain ⟨state, nonce, verifier, hpast, -⟩ := hallowed
  obtain ⟨state', nonce', verifier', hpast', -⟩ := hallowed'
  have hid : row'.id = row.id := by rw [heq, hl]
  have hthread : o.thread = ev.thread := by
    refine System.recorded_drawn (k := row.id) (fun k : Nat => (⟨.uuid4, k⟩ : Calls.Done))
      (fun (s : State) k => k ∈ s.issued) ?_ ?_ hr ?_ ?_
    · exact fun e he k => step_issued he k
    · rintro ⟨t, o, ch, before, x, after⟩ hrun k hdraw
      cases hdraw
      exact step_uuid4 hrun
    · rw [hfirst]
      refine (System.own_sublist (List.sublist_append_left p _)).subset ?_
      rw [hpast', hid]
      simp
    · rw [hsplit]
      refine (System.own_sublist (List.sublist_append_left (p ++ o :: q) _)).subset ?_
      rw [hpast]
      simp
  have hsub : (System.own o.thread (p ++ [o])).Sublist (System.own o.thread (p ++ o :: q)) :=
    System.own_sublist (by simp)
  have hlong := hsub.length_le
  rw [System.own_snoc, hpast', hthread, hpast] at hlong
  simp at hlong

/-- **The invariant holds throughout.** -/
theorem kept_of_reaches (hs : s.tables = {})
    (hr : (service site).recorded.Reaches cond (Config.idle (s, [])) d) :
    System.Each (fun pre ev => Kept ev.before pre) d.shared.2 := by
  refine (System.recorded_induction hr (kept_start hs) fun pre ev post hsplit hk => ?_).2
  have hran := ran_of_reaches hr pre ev post hsplit
  have hallowed := allowed_of_reaches hr pre ev post hsplit
  exact ⟨step_sound hran hk.sound, kept_opened hk hran, kept_used hk hran hallowed,
    kept_found hk hran, kept_made hk hran, kept_started hk hran hallowed, kept_consumed hk,
    kept_spent hk hran fun o ho l now row hstarts hop => started_once hr hsplit ho hstarts hop⟩

/-- What an event leaves and what a later one finds. -/
theorem next_of_reaches (hr : (service site).recorded.Reaches cond (Config.idle (s, [])) d) :
    System.Each (fun pre ev => ∀ e ∈ pre, e.after.tables.Next ev.before.tables) d.shared.2 := by
  have hbetween := System.recorded_between (P := fun _ => True)
    (R := fun a b : State => a.tables.Next b.tables) (fun s => .refl s.tables)
    (fun _ _ _ => Tables.Next.trans) (fun p _ => p.issues_any) (fun ev _ hev => step_next hev) hr
  exact fun pre ev post hsplit => (hbetween pre ev post hsplit).2

end Runs

end Auth
end L1Agent
