import L1Agent.Auth.SignIn
import L1Agent.Library.Rows

/-! # What a transaction does to the tables

A session, a token and a user keep the columns that say whose they are, and what has been revoked
stays so; the state of a sign-in is there until it is consumed or has expired.

`DbCall.Effect` says so of every transaction, table by table; the invariants of the runs are derived
from it and not from the transactions themselves.
-/
namespace L1Agent
namespace Auth
open Rows

/-- What may become of a session. -/
def Session.Next (s s' : Session) : Prop :=
  ∃ seen revoked, s' = { s with lastSeenAt := seen, revokedAt := revoked } ∧
    (s.revokedAt ≠ none → revoked ≠ none)

/-- What may become of a token. -/
def ApiToken.Next (t t' : ApiToken) : Prop :=
  ∃ used revoked, t' = { t with lastUsedAt := used, revokedAt := revoked } ∧
    (t.revokedAt ≠ none → revoked ≠ none)

/-- What may become of a user. -/
def User.Next (u u' : User) : Prop :=
  ∃ email displayName, u' = { u with email := email, displayName := displayName }

theorem Session.Next.refl (s : Session) : s.Next s := ⟨_, _, rfl, fun h => h⟩

theorem ApiToken.Next.refl (t : ApiToken) : t.Next t := ⟨_, _, rfl, fun h => h⟩

theorem User.Next.refl (u : User) : u.Next u := ⟨_, _, rfl⟩

theorem Session.Next.trans {a b c : Session} (h : a.Next b) (hbc : b.Next c) : a.Next c := by
  obtain ⟨_, _, rfl, hr⟩ := h
  obtain ⟨seen, revoked, rfl, hr'⟩ := hbc
  exact ⟨seen, revoked, rfl, fun hne => hr' (hr hne)⟩

theorem ApiToken.Next.trans {a b c : ApiToken} (h : a.Next b) (hbc : b.Next c) : a.Next c := by
  obtain ⟨_, _, rfl, hr⟩ := h
  obtain ⟨used, revoked, rfl, hr'⟩ := hbc
  exact ⟨used, revoked, rfl, fun hne => hr' (hr hne)⟩

theorem User.Next.trans {a b c : User} (h : a.Next b) (hbc : b.Next c) : a.Next c := by
  obtain ⟨_, _, rfl⟩ := h
  obtain ⟨email, displayName, rfl⟩ := hbc
  exact ⟨email, displayName, rfl⟩

theorem Session.Next.id_eq (s s' : Session) (h : s.Next s') : s'.id = s.id := by
  obtain ⟨_, _, rfl, -⟩ := h
  rfl

theorem ApiToken.Next.id_eq (t t' : ApiToken) (h : t.Next t') : t'.id = t.id := by
  obtain ⟨_, _, rfl, -⟩ := h
  rfl

theorem User.Next.id_eq (u u' : User) (h : u.Next u') : u'.id = u.id := by
  obtain ⟨_, _, rfl⟩ := h
  rfl

/-- What a transaction makes of a session. -/
inductive Session.Move (s : Session) : DbCall → Session → Prop where
  | stay (c : DbCall) : Move s c s
  | touch (now : Rat) : Move s (.touchSession s.id now) { s with lastSeenAt := now }
  | revoke (now : Rat) (entry : Entry) :
      Move s (.revokeSession s.tenantId s.id now entry) { s with revokedAt := some now }

/-- What a transaction makes of a token. -/
inductive ApiToken.Move (t : ApiToken) : DbCall → ApiToken → Prop where
  | stay (c : DbCall) : Move t c t
  | touch (now : Rat) : Move t (.touchToken t.id now) { t with lastUsedAt := some now }
  | revoke (now : Rat) (entry : Entry) :
      Move t (.revokeToken t.tenantId t.id now entry) { t with revokedAt := some now }

/-- What a transaction makes of the state of a sign-in that it keeps. -/
inductive LoginState.Move (l : LoginState) : DbCall → LoginState → Prop where
  | stay (c : DbCall) : Move l c l
  | bind (requestId : String) :
      Move l (.bindLoginState l.tenantId l.stateHash requestId)
        { l with nonce := cut 64 requestId }

theorem Session.Move.next {s s' : Session} {c : DbCall} (h : s.Move c s') : s.Next s' := by
  cases h with
  | stay => exact .refl s
  | touch now => exact ⟨now, s.revokedAt, rfl, fun h => h⟩
  | revoke now entry => exact ⟨s.lastSeenAt, some now, rfl, fun _ => Option.some_ne_none _⟩

theorem ApiToken.Move.next {t t' : ApiToken} {c : DbCall} (h : t.Move c t') : t.Next t' := by
  cases h with
  | stay => exact .refl t
  | touch now => exact ⟨some now, t.revokedAt, rfl, fun h => h⟩
  | revoke now entry => exact ⟨t.lastUsedAt, some now, rfl, fun _ => Option.some_ne_none _⟩

theorem LoginState.Move.id_eq {l l' : LoginState} {c : DbCall} (h : l.Move c l') :
    l'.id = l.id := by
  cases h <;> rfl

variable {c : DbCall} {d d' : Tables} {v : c.Val}

/-- What is there when a session has been opened. -/
structure Tables.Opened (d d' : Tables) (user : User) (session : Session) (uid : Nat) : Prop where
  upserted : upsertUser user d.users = some (uid, d'.users)
  fresh : ∀ s ∈ d.sessions, s.id ≠ session.id
  sessions : d'.sessions = d.sessions ++ [{ session with userId := uid }]

/-- **What a transaction does**, table by table: it moves each row, or inserts one. -/
structure DbCall.Effect (c : DbCall) (d d' : Tables) : Prop where
  people : (d'.users = d.users ∧ ∃ f : Session → Session, d'.sessions = d.sessions.map f ∧
      ∀ s : Session, s.Move c (f s)) ∨
    ∃ user session entry uid, c = .openSession user session entry ∧ d.Opened d' user session uid
  tokens : (∃ f : ApiToken → ApiToken, d'.tokens = d.tokens.map f ∧
      ∀ t : ApiToken, t.Move c (f t)) ∨
    ∃ row entry, c = .createToken row entry ∧ (∀ t ∈ d.tokens, t.id ≠ row.id) ∧
      d'.tokens = d.tokens ++ [row]
  states : ∃ kept : LoginState → Bool,
    (∃ f : LoginState → LoginState, d'.loginStates = (d.loginStates.filter kept).map f ∧
      ∀ l : LoginState, l.Move c (f l)) ∨
    ∃ now row, c = .createLoginState now row ∧ (∀ l ∈ d.loginStates.filter kept, l.id ≠ row.id) ∧
      d'.loginStates = d.loginStates.filter kept ++ [row]

/-! Tables that a transaction leaves as they are. -/

theorem sameSessions (c : DbCall) (rows : List Session) :
    ∃ f : Session → Session, rows = rows.map f ∧ ∀ s : Session, s.Move c (f s) :=
  ⟨id, (List.map_id _).symm, fun _ => .stay c⟩

theorem sameTokens (c : DbCall) (rows : List ApiToken) :
    ∃ f : ApiToken → ApiToken, rows = rows.map f ∧ ∀ t : ApiToken, t.Move c (f t) :=
  ⟨id, (List.map_id _).symm, fun _ => .stay c⟩

theorem filteredStates (c : DbCall) (kept : LoginState → Bool) (rows : List LoginState) :
    ∃ f : LoginState → LoginState, rows.filter kept = (rows.filter kept).map f ∧
      ∀ l : LoginState, l.Move c (f l) :=
  ⟨id, (List.map_id _).symm, fun _ => .stay c⟩

theorem sameStates (c : DbCall) (rows : List LoginState) : ∃ kept : LoginState → Bool,
    (∃ f : LoginState → LoginState, rows = (rows.filter kept).map f ∧
      ∀ l : LoginState, l.Move c (f l)) ∨
    ∃ now row, c = .createLoginState now row ∧ (∀ l ∈ rows.filter kept, l.id ≠ row.id) ∧
      rows = rows.filter kept ++ [row] :=
  ⟨fun _ => true, Or.inl ⟨id, by simp, fun _ => .stay c⟩⟩

theorem run_effect (h : c.run d = some (v, d')) : c.Effect d d' := by
  cases c with
  | createLoginState now row =>
    unfold DbCall.run at h
    dsimp only at h
    split_ifs at h with hany
    cases h
    refine ⟨Or.inl ⟨rfl, sameSessions _ _⟩, Or.inl (sameTokens _ _), _,
      Or.inr ⟨now, row, rfl, fun l hl heq => hany ?_, rfl⟩⟩
    exact List.any_eq_true.mpr ⟨l, hl, by simp [heq]⟩
  | bindLoginState tenantId stateHash requestId =>
    cases h
    refine ⟨Or.inl ⟨rfl, sameSessions _ _⟩, Or.inl (sameTokens _ _), fun _ => true,
      Or.inl ⟨_, by rw [List.filter_true], fun l => ?_⟩⟩
    split_ifs with hhit
    · obtain ⟨rfl, rfl⟩ := hhit
      exact .bind requestId
    · exact .stay _
  | consumeLoginState now tenantId stateHash =>
    cases h
    exact ⟨Or.inl ⟨rfl, sameSessions _ _⟩, Or.inl (sameTokens _ _), _,
      Or.inl (filteredStates _ _ _)⟩
  | openSession user session entry =>
    obtain ⟨upserted, hupserted, h⟩ := Option.bind_eq_some_iff.mp h
    obtain ⟨uid, users⟩ := upserted
    split_ifs at h with hany
    cases h
    refine ⟨Or.inr ⟨user, session, entry, uid, rfl, hupserted, fun s hs heq => hany ?_, rfl⟩,
      Or.inl (sameTokens _ _), sameStates _ _⟩
    exact List.any_eq_true.mpr ⟨s, hs, by simp [heq]⟩
  | touchSession id now =>
    cases h
    refine ⟨Or.inl ⟨rfl, _, rfl, fun s => ?_⟩, Or.inl (sameTokens _ _), sameStates _ _⟩
    split_ifs with hid
    · subst hid
      exact .touch now
    · exact .stay _
  | revokeSession tenantId id now entry =>
    cases h
    refine ⟨Or.inl ⟨rfl, _, rfl, fun s => ?_⟩, Or.inl (sameTokens _ _), sameStates _ _⟩
    split_ifs with hhit
    · obtain ⟨rfl, rfl⟩ := hhit
      exact .revoke now entry
    · exact .stay _
  | createToken row entry =>
    unfold DbCall.run at h
    dsimp only at h
    split_ifs at h with hany
    cases h
    refine ⟨Or.inl ⟨rfl, sameSessions _ _⟩,
      Or.inr ⟨row, entry, rfl, fun t ht heq => hany ?_, rfl⟩, sameStates _ _⟩
    exact List.any_eq_true.mpr ⟨t, ht, by simp [heq]⟩
  | touchToken id now =>
    cases h
    refine ⟨Or.inl ⟨rfl, sameSessions _ _⟩, Or.inl ⟨_, rfl, fun t => ?_⟩, sameStates _ _⟩
    split_ifs with hid
    · subst hid
      exact .touch now
    · exact .stay _
  | revokeToken tenantId id now entry =>
    unfold DbCall.run at h
    dsimp only at h
    split_ifs at h
    · cases h
      refine ⟨Or.inl ⟨rfl, sameSessions _ _⟩, Or.inl ⟨_, rfl, fun t => ?_⟩, sameStates _ _⟩
      split_ifs with hhit
      · obtain ⟨rfl, rfl, -⟩ := hhit
        exact .revoke now entry
      · exact .stay _
    · cases h
      exact ⟨Or.inl ⟨rfl, sameSessions _ _⟩, Or.inl (sameTokens _ _), sameStates _ _⟩
  | setMapping row grant entry =>
    unfold DbCall.run at h
    dsimp only at h
    split_ifs at h <;> cases h <;>
      exact ⟨Or.inl ⟨rfl, sameSessions _ _⟩, Or.inl (sameTokens _ _), sameStates _ _⟩
  | _ =>
    cases h
    exact ⟨Or.inl ⟨rfl, sameSessions _ _⟩, Or.inl (sameTokens _ _), sameStates _ _⟩

/-- A session that is revoked is so for good: the update finds it by its id. -/
theorem run_revokeSession {tenantId : String} {id : Nat} {now : Rat} {entry : Entry} {v : Unit}
    (h : (DbCall.revokeSession tenantId id now entry).run d = some (v, d')) {s : Session}
    (hs : s ∈ d'.sessions) (htenant : s.tenantId = tenantId) (hid : s.id = id) :
    s.revokedAt ≠ none := by
  cases h
  obtain ⟨s₀, -, rfl⟩ := List.mem_map.mp hs
  by_cases hhit : s₀.tenantId = tenantId ∧ s₀.id = id
  · rw [if_pos hhit]
    exact Option.some_ne_none _
  · rw [if_neg hhit] at htenant hid
    exact absurd ⟨htenant, hid⟩ hhit

/-- A token that is found when it is to be revoked is revoked. -/
theorem run_revokeToken {tenantId : String} {id : Nat} {now : Rat} {entry : Entry}
    (h : (DbCall.revokeToken tenantId id now entry).run d = some (true, d')) :
    ∃ t ∈ d'.tokens, t.tenantId = tenantId ∧ t.id = id ∧ t.revokedAt ≠ none := by
  unfold DbCall.run at h
  dsimp only at h
  split_ifs at h with hany
  · cases h
    obtain ⟨t, ht, hhit⟩ := List.any_eq_true.mp hany
    have hhit : t.tenantId = tenantId ∧ t.id = id ∧ t.revokedAt = none := of_decide_eq_true hhit
    refine ⟨_, List.mem_map_of_mem ht, ?_⟩
    rw [if_pos hhit]
    exact ⟨hhit.1, hhit.2.1, Option.some_ne_none _⟩
  · cases h

/-! ## Users -/

/-- The user that a sign-in is for. -/
def User.For (u user : User) : Prop :=
  u.tenantId = user.tenantId ∧ u.issuer = cut 500 user.issuer ∧ u.subject = cut 500 user.subject

theorem User.Next.for {u u' user : User} (h : u.Next u') (hu : u.For user) : u'.For user := by
  obtain ⟨_, _, rfl⟩ := h
  exact hu

/-- What is stored of an issuer and a subject is no longer than the column. -/
def User.Fits (u : User) : Prop := cut 500 u.issuer = u.issuer ∧ cut 500 u.subject = u.subject

theorem cut_cut (n : Nat) (text : String) : cut n (cut n text) = cut n text := by
  simp [cut, List.take_take]

theorem User.stored_fits (user : User) : user.stored.Fits := ⟨cut_cut _ _, cut_cut _ _⟩

/-- The row of a user that is signed in. -/
theorem upsertUser_cases {user : User} {users users' : List User} {uid : Nat}
    (h : upsertUser user users = some (uid, users')) :
    Carried User.Next users users' ∧
    ((∀ u ∈ users, u.Fits) → (∀ u ∈ users', u.Fits) ∧ ∃ u ∈ users', u.id = uid ∧ u.For user) ∧
    ((users.map (·.id)).Nodup → (users'.map (·.id)).Nodup) := by
  unfold upsertUser at h
  cases hfind : users.find? fun u => u.same user with
  | some found =>
    rw [hfind] at h
    cases h
    have hmem := List.mem_of_find?_eq_some hfind
    have hsame : found.tenantId = user.tenantId ∧ found.issuer = user.issuer ∧
        found.subject = user.subject := by
      simpa [User.same] using List.find?_some hfind
    have hnext : ∀ u : User, u.Next (if u.id = found.id then
        { u with
          email := cut 320 user.email, displayName := cut 200 user.displayName } else u) := by
      intro u
      split_ifs
      · exact ⟨_, _, rfl⟩
      · exact .refl u
    refine ⟨carried_map fun u _ => hnext u, fun hfits => ⟨fun u' hu' => ?_, ?_⟩,
      nodup_update fun u _ => (hnext u).id_eq⟩
    · obtain ⟨u, hu, rfl⟩ := List.mem_map.mp hu'
      obtain ⟨_, _, heq⟩ := hnext u
      rw [heq]
      exact hfits u hu
    · refine ⟨_, List.mem_map_of_mem hmem, (hnext found).id_eq, (hnext found).for ?_⟩
      obtain ⟨htenant, hissuer, hsubject⟩ := hsame
      refine ⟨htenant, ?_, ?_⟩
      · rw [← hissuer, (hfits found hmem).1]
      · rw [← hsubject, (hfits found hmem).2]
  | none =>
    rw [hfind] at h
    dsimp only at h
    split_ifs at h with hany
    cases h
    refine ⟨carried_append User.Next.refl _, fun hfits => ⟨fun u hu => ?_, ?_⟩,
      fun hd => nodup_insert hd fun u hu heq => hany ?_⟩
    · rcases List.mem_append.mp hu with hu | hu
      · exact hfits u hu
      · cases List.mem_singleton.mp hu
        exact user.stored_fits
    · exact ⟨user.stored, by simp, rfl, rfl, rfl, rfl⟩
    · have hid : u.id = user.id := heq
      exact List.any_eq_true.mpr ⟨u, hu, by simp [hid]⟩

/-! ## What every transaction keeps -/

/-- The rows of a table are told apart by their ids, and users fit in their columns. -/
structure Tables.Sound (d : Tables) : Prop where
  users : (d.users.map (·.id)).Nodup
  sessions : (d.sessions.map (·.id)).Nodup
  tokens : (d.tokens.map (·.id)).Nodup
  states : (d.loginStates.map (·.id)).Nodup
  fits : ∀ u ∈ d.users, u.Fits

/-- No user, session or token is lost, and each remains whose it was. -/
structure Tables.Next (d d' : Tables) : Prop where
  users : Carried User.Next d.users d'.users
  sessions : Carried Session.Next d.sessions d'.sessions
  tokens : Carried ApiToken.Next d.tokens d'.tokens

theorem Tables.Next.refl (d : Tables) : d.Next d :=
  ⟨.refl User.Next.refl _, .refl Session.Next.refl _, .refl ApiToken.Next.refl _⟩

theorem Tables.Next.trans {a b c : Tables} (h : a.Next b) (hbc : b.Next c) : a.Next c :=
  ⟨h.users.trans (fun _ _ _ hxy => hxy.trans) hbc.users,
    h.sessions.trans (fun _ _ _ hxy => hxy.trans) hbc.sessions,
    h.tokens.trans (fun _ _ _ hxy => hxy.trans) hbc.tokens⟩

theorem DbCall.Effect.next (h : c.Effect d d') : d.Next d' := by
  refine ⟨?_, ?_, ?_⟩
  · obtain ⟨hsame, -⟩ | ⟨user, session, entry, uid, -, hopened⟩ := h.people
    · rw [hsame]
      exact .refl User.Next.refl _
    · exact (upsertUser_cases hopened.upserted).1
  · obtain ⟨-, f, hf, hmove⟩ | ⟨user, session, entry, uid, -, hopened⟩ := h.people
    · rw [hf]
      exact carried_map fun s _ => (hmove s).next
    · rw [hopened.sessions]
      exact carried_append Session.Next.refl _
  · obtain ⟨f, hf, hmove⟩ | ⟨row, entry, -, -, hinsert⟩ := h.tokens
    · rw [hf]
      exact carried_map fun t _ => (hmove t).next
    · rw [hinsert]
      exact carried_append ApiToken.Next.refl _

theorem DbCall.Effect.sound (h : c.Effect d d') (hd : d.Sound) : d'.Sound := by
  refine ⟨?_, ?_, ?_, ?_, ?_⟩
  · obtain ⟨hsame, -⟩ | ⟨user, session, entry, uid, -, hopened⟩ := h.people
    · rw [hsame]
      exact hd.users
    · exact (upsertUser_cases hopened.upserted).2.2 hd.users
  · obtain ⟨-, f, hf, hmove⟩ | ⟨user, session, entry, uid, -, hopened⟩ := h.people
    · rw [hf]
      exact nodup_update (fun s _ => (hmove s).next.id_eq) hd.sessions
    · rw [hopened.sessions]
      exact nodup_insert hd.sessions hopened.fresh
  · obtain ⟨f, hf, hmove⟩ | ⟨row, entry, -, hfresh, hinsert⟩ := h.tokens
    · rw [hf]
      exact nodup_update (fun t _ => (hmove t).next.id_eq) hd.tokens
    · rw [hinsert]
      exact nodup_insert hd.tokens hfresh
  · obtain ⟨kept, ⟨f, hf, hmove⟩ | ⟨now, row, -, hfresh, hinsert⟩⟩ := h.states
    · rw [hf]
      exact nodup_update (fun l _ => (hmove l).id_eq) (nodup_filter hd.states)
    · rw [hinsert]
      exact nodup_insert (nodup_filter hd.states) hfresh
  · obtain ⟨hsame, -⟩ | ⟨user, session, entry, uid, -, hopened⟩ := h.people
    · rw [hsame]
      exact hd.fits
    · exact ((upsertUser_cases hopened.upserted).2.1 hd.fits).1

end Auth
end L1Agent
