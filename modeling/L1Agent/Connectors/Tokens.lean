import L1Agent.Connectors.Rotation

/-! # Access tokens

An OAuth credential fetches its access token under a lock and keeps it until shortly before it
expires.  A token that is presented goes back to an answer of the token endpoint to credentials that
were current; requests that find no token wait for the one that fetches it.

`token_current` says where a token comes from and what is known of its expiry (`Granted`, `Kept`).
The lock is held by the thread that took it last (`holder_took_last`), which gives `one_fetch`:
between two requests to the token endpoint the first has given the lock back.
-/
namespace L1Agent
namespace Credentials
open Interleaving Secrets
open Http (Exn HttpClient)

variable {site : Site} {cond : (eventLoop site).recorded.Cond} {clock : Rat}
  {d : Config Calls Exn ((Option Nat × State) × List (eventLoop site).Event)}
  {pre post : List (eventLoop site).Event} {ev : (eventLoop site).Event}
  (hr : (eventLoop site).recorded.Reaches cond (Config.idle (atStart clock, [])) d)

/-! ## Where a token comes from -/

/-- The event forgets the access token, or replaces it. -/
def Renews (c : Nat) (ev : (eventLoop site).Event) : Prop :=
  ev.op = .forget c ∨ ∃ token lifetime, ev.op = .keep c token lifetime

theorem not_renews {c : Nat} (h : writesToken c ev = none) : ¬ Renews c ev := by
  unfold writesToken at h
  rintro (hop | ⟨token, lifetime, hop⟩) <;> simp [hop] at h

/-- What the event sets the expiry to. -/
def writesExpiry (c : Nat) (ev : (eventLoop site).Event) : Option (WithTop Rat) :=
  match ev.op with
  | .keep c' _ (some lifetime) => if c' = c then some (expiry (instant ev) lifetime) else none
  | _ => none

/-- The expiry after these events: what the last token with a lifetime has left. -/
def expiresAfter (c : Nat) (tr : List (eventLoop site).Event) : WithTop Rat :=
  (tr.filterMap (writesExpiry c)).getLast?.getD (0 : Rat)

/-- The token endpoint has granted the token to the thread, for credentials that were current. -/
def Granted (pre : List (eventLoop site).Event) (t c : Nat) (o : OAuth) (token : String)
    (lifetime : Option (WithTop Rat)) : Prop :=
  ∃ p x q clientSecret password posted fresh, pre = p ++ x :: q ∧ x.thread = t ∧
    deed x = ⟨.post c (o.form clientSecret password), .ok posted⟩ ∧
    o.granted site posted = .ok (token, lifetime) ∧
    SlotCurrent p t (site.clients c).secrets fresh o.clientSecretSlot clientSecret ∧
    ∀ value, password = some value →
      SlotCurrent p t (site.clients c).secrets fresh o.passwordSlot value

/-- The token was kept, has not expired, and nothing has renewed it since.  One whose lifetime is
beyond a `float` expires with the last one before it that had a lifetime. -/
def Kept (before : List (eventLoop site).Event) (c : Nat) (o : OAuth) (token : String) (now : Rat) :
    Prop :=
  ∃ p k q lifetime, before = p ++ k :: q ∧ k.op = .keep c token lifetime ∧
    (now : WithTop Rat) < (lifetime.map (expiry (instant k))).getD (expiresAfter c p) ∧
    (∀ e ∈ q, ¬ Renews c e) ∧ Granted p k.thread c o token lifetime

include hr in
/-- A token that is kept is one that was granted. -/
theorem granted_of_keep (hsplit : d.shared.2 = pre ++ ev :: post) {c : Nat} {o : OAuth}
    (hauth : (site.clients c).auth = .oauth o) {token : String}
    {lifetime : Option (WithTop Rat)} (hop : ev.op = .keep c token lifetime) :
    Granted pre ev.thread c o token lifetime := by
  have hallowed : Allowed site (System.own ev.thread pre) ev.op :=
    allowed_of_reaches hr pre ev post hsplit
  rw [hop] at hallowed
  obtain ⟨-, before, o', fresh, tail, hauth', hown, hfetched⟩ := hallowed
  obtain rfl : o = o' := by
    rw [hauth] at hauth'
    cases hauth'
    rfl
  obtain ⟨clientSecret, password, asked, asked', posted, hsecret, hpassword, hnone, hgranted⟩ :=
    hfetched
  obtain ⟨p, x, q, rfl, hthread, hdone, hp, -⟩ := System.own_split
    (show System.own ev.thread pre = (before ++ [⟨.lock c, .fetch fresh⟩] ++ asked ++ asked') ++
        ⟨.post c (o.form clientSecret password), .ok posted⟩ :: [] by
      rw [hown]
      simp)
  have hx : d.shared.2 = p ++ x :: (q ++ ev :: post) := by simp [hsplit]
  have hflag : decide (Flag.given fresh = .given true) = fresh := by cases fresh <;> rfl
  refine ⟨p, x, q, clientSecret, password, posted, fresh, rfl, hthread, hdone.symm, hgranted, ?_,
    ?_⟩
  · have hcurrent := slotCurrent_of_got hr hx hp hsecret fun y hy => ?_
    · rwa [hflag] at hcurrent
    · cases password with
      | none =>
        rw [hnone rfl] at hy
        exact absurd hy List.not_mem_nil
      | some value => exact (hpassword value rfl).not_sends y hy
  · rintro value rfl
    have hcurrent := slotCurrent_of_got hr hx (hp.trans (List.append_nil _).symm)
      (hpassword value rfl) fun y hy => absurd hy List.not_mem_nil
    rwa [hflag] at hcurrent

theorem writesExpiry_writesToken (c : Nat) (expires : WithTop Rat)
    (h : ev.before.2.expiresAt c = expires) :
    ((writesToken c ev).getD (ev.before.2.token c, expires)).2 =
      (writesExpiry c ev).getD expires := by
  subst h
  unfold writesToken writesExpiry
  cases ev.op with
  | forget c' =>
    dsimp only
    split <;> rfl
  | keep c' token lifetime =>
    cases lifetime <;> dsimp only <;> split <;> rfl
  | _ => rfl

include hr in
/-- The expiry is the one that the events have left. -/
theorem expiresAt_eq (hsplit : d.shared.2 = pre ++ ev :: post) (c : Nat) :
    ev.before.2.expiresAt c = expiresAfter c pre := by
  have hlast := System.recorded_written (fun s : Option Nat × State => s.2.expiresAt c)
    (writesExpiry c) (fun e he => ?_) hr pre ev post hsplit
  · unfold expiresAfter
    rcases hlast with ⟨hstart, hnone⟩ | ⟨o, p, q, rfl, hwrote, hnone⟩
    · rw [List.filterMap_eq_nil_iff.mpr hnone]
      exact hstart
    · rw [List.filterMap_append, List.filterMap_cons, hwrote, List.filterMap_eq_nil_iff.mpr hnone,
        List.getLast?_concat]
      rfl
  · have hran : Ran e := (Option.ite_none_left_eq_some.mp (System.segmented_run he).2.1).2
    exact (congrArg Prod.snd (hran.parts [] c).2.1).trans (writesExpiry_writesToken c _ rfl)

include hr in
theorem kept_of_lock (hsplit : d.shared.2 = pre ++ ev :: post) {c : Nat} {o : OAuth}
    (hauth : (site.clients c).auth = .oauth o) {token : String}
    (hdone : deed ev = ⟨.lock c, .token token⟩) : Kept pre c o token (instant ev) := by
  obtain ⟨hsome, htoken, hnow⟩ := (ran_of_reaches hr pre ev post hsplit).locked hdone
  rcases (written_last hr hsplit c).2 with ⟨hstart, -⟩ | ⟨k, p, q, rfl, hwrote, hnone⟩
  · exact absurd (htoken.symm.trans (congrArg Prod.fst hstart)) hsome
  · rw [htoken] at hwrote
    obtain ⟨lifetime, hop, hexpires⟩ := keep_of_writes hwrote hsome
    have hk : d.shared.2 = p ++ k :: (q ++ ev :: post) := by simp [hsplit]
    rw [expiresAt_eq hr hk c] at hexpires
    exact ⟨p, k, q, lifetime, rfl, hop, hexpires ▸ hnow, fun e he => not_renews (hnone e he),
      granted_of_keep hr hk hauth hop⟩

/-- **An access token that is presented** was granted by the token endpoint for credentials that
were current, and had not expired by what was kept with it. -/
theorem token_current
    (hr : (eventLoop site).recorded.Reaches cond (Config.idle (atStart clock, [])) d)
    (hsplit : d.shared.2 = pre ++ ev :: post) {c : Nat} {sent : Http.Sent}
    (hop : ev.op = .send c sent) {o : OAuth} (hauth : (site.clients c).auth = .oauth o) :
    ∃ token, presented sent = some ("Bearer " ++ token) ∧ Lately pre ev.thread fun p e =>
      (∃ lifetime, e.op = .keep c token lifetime ∧ Granted p e.thread c o token lifetime) ∨
      e.op = .lock c ∧ Kept p c o token (instant e) := by
  obtain ⟨head, auth, tail, r, -, hpresented, hown, rfl⟩ := attempt_of_send hr hsplit hop
  obtain ⟨token, rfl, rfl | ⟨got, lifetime, rfl⟩⟩ := hpresented.token hauth
  · refine ⟨token, presented_sent _ _ _, ?_⟩
    obtain ⟨p, e, q, rfl, hthread, hdone, -, hq⟩ := System.own_split hown
    have he : d.shared.2 = p ++ e :: (q ++ ev :: post) := by simp [hsplit]
    refine ⟨p, e, q, rfl, hthread, not_sent_of_own ?_,
      Or.inr ⟨?_, kept_of_lock hr he hauth hdone.symm⟩⟩
    · rw [hq]
      exact fun x hx => absurd hx List.not_mem_nil
    · exact (congrArg Signature.Done.op hdone).symm
  · refine ⟨token, presented_sent _ _ _, ?_⟩
    obtain ⟨p, e, q, rfl, hthread, hdone, -, hq⟩ := System.own_split
      (hown.trans (List.append_assoc ..).symm)
    have he : d.shared.2 = p ++ e :: (q ++ ev :: post) := by simp [hsplit]
    have hkeep : e.op = .keep c token (some lifetime) :=
      (congrArg Signature.Done.op hdone).symm
    refine ⟨p, e, q, rfl, hthread, not_sent_of_own ?_,
      Or.inl ⟨some lifetime, hkeep, granted_of_keep hr he hauth hkeep⟩⟩
    rw [hq]
    exact fun x hx => absurd hx List.not_mem_nil

theorem token_current_sample :
    ∃ (pre : List (eventLoop sampleSite).Event) (ev : (eventLoop sampleSite).Event)
      (sent : Http.Sent) (o : OAuth) (token : String), ev.op = .send 1 sent ∧
      presented sent = some ("Bearer " ++ token) ∧ Lately pre ev.thread fun p e =>
        (∃ lifetime, e.op = .keep 1 token lifetime ∧ Granted p e.thread 1 o token lifetime) ∨
        e.op = .lock 1 ∧ Kept p 1 o token (instant e) := by
  obtain ⟨d, p₁, p₂, p₃, p₄, p₅, q, e₁, e₂, e₃, e₄, e₅, hr, hsplit, -, -, -, -, he₄, -⟩ :=
    sample_run
  obtain ⟨-, sent, hop, -⟩ := sent_of_mark he₄
  have hcut : d.shared.2 = (p₁ ++ e₁ :: (p₂ ++ e₂ :: (p₃ ++ e₃ :: p₄))) ++
      e₄ :: (p₅ ++ e₅ :: q) := by simp [hsplit]
  obtain ⟨token, htoken⟩ := token_current hr hcut hop rfl
  exact ⟨_, e₄, sent, _, token, hop, htoken⟩

/-! ## The lock -/

theorem Holding.snoc {c : Nat} {past : List Calls.Done} {x : Calls.Done}
    (h : Holding c (past ++ [x])) :
    (∃ fresh, x = ⟨.lock c, .fetch fresh⟩) ∨ x.op.quiet ∧ Holding c past := by
  obtain ⟨before, fresh, tail, heq, hquiet⟩ := h
  rcases List.eq_nil_or_concat tail with rfl | ⟨tail, last, rfl⟩
  · obtain ⟨-, hlast⟩ := List.append_inj' heq rfl
    exact Or.inl ⟨fresh, by simpa using hlast⟩
  · have hsplit : past ++ [x] = (before ++ ⟨.lock c, .fetch fresh⟩ :: tail) ++ [last] := by
      simpa using heq
    obtain ⟨rfl, hlast⟩ := List.append_inj' hsplit rfl
    obtain rfl : x = last := by simpa using hlast
    exact Or.inr ⟨hquiet x (by simp), before, fresh, tail, rfl, fun y hy => hquiet y (by simp [hy])⟩

/-- What writes the lock takes it or gives it back. -/
theorem locked_of_writes {c : Nat} {b : Bool} (h : writesLocked c ev = some b) :
    (∃ fresh, deed ev = ⟨.lock c, .fetch fresh⟩) ∧ b = true ∨
      ((∃ token lifetime, ev.op = .keep c token (some lifetime)) ∨ ev.op = .unlock c) ∧
        b = false := by
  obtain ⟨t, o, ch, before, x, after⟩ := ev
  cases o with
  | lock c' =>
    cases x with
    | token token => cases h
    | fetch fresh =>
      obtain ⟨rfl, heq⟩ := Option.ite_none_right_eq_some.mp h
      cases heq
      exact Or.inl ⟨⟨fresh, rfl⟩, rfl⟩
  | keep c' token lifetime =>
    cases lifetime with
    | none => cases h
    | some lifetime =>
      obtain ⟨rfl, heq⟩ := Option.ite_none_right_eq_some.mp h
      cases heq
      exact Or.inr ⟨Or.inl ⟨token, lifetime, rfl⟩, rfl⟩
  | unlock c' =>
    obtain ⟨rfl, heq⟩ := Option.ite_none_right_eq_some.mp h
    cases heq
    exact Or.inr ⟨Or.inr rfl, rfl⟩
  | _ => cases h

theorem writesLocked_quiet {c : Nat} (h : Op.quiet ev.op) : writesLocked c ev = none := by
  cases hwrites : writesLocked c ev with
  | none => rfl
  | some b =>
    rcases locked_of_writes hwrites with ⟨⟨fresh, hdone⟩, -⟩ | ⟨⟨token, lifetime, hop⟩ | hop, -⟩
    · rw [show ev.op = .lock c from congrArg Signature.Done.op hdone] at h
      exact absurd h id
    · rw [hop] at h
      exact absurd h id
    · rw [hop] at h
      exact absurd h id

theorem writesLocked_take {c : Nat} {fresh : Bool} (h : deed ev = ⟨.lock c, .fetch fresh⟩) :
    writesLocked c ev = some true := by
  unfold writesLocked
  rw [h]
  exact if_pos rfl

include hr in
theorem locked_last (hsplit : d.shared.2 = pre ++ ev :: post) (c : Nat) :
    ev.before.2.locked c = false ∧ (∀ e ∈ pre, writesLocked c e = none) ∨
      ∃ o, System.LastWrote (writesLocked c) pre o (ev.before.2.locked c) := by
  refine System.recorded_written (fun s : Option Nat × State => s.2.locked c) (writesLocked c)
    (fun e he => ?_) hr pre ev post hsplit
  have hran : Ran e := (Option.ite_none_left_eq_some.mp (System.segmented_run he).2.1).2
  exact (hran.parts [] c).2.2.2

include hr in
/-- The lock is taken when it is free. -/
theorem free_of_take (hsplit : d.shared.2 = pre ++ ev :: post) {c : Nat} {fresh : Bool}
    (hdone : deed ev = ⟨.lock c, .fetch fresh⟩) {o : (eventLoop site).Event}
    (hlast : System.LastWrote (writesLocked c) pre o true) : False := by
  have hran := ran_of_reaches hr pre ev post hsplit
  have hfree : ev.before.2.locked c = false := by
    obtain ⟨t, o, ch, ⟨r, before⟩, x, ⟨r', after⟩⟩ := ev
    cases hdone
    exact (lock_eq_some hran).1
  rcases locked_last hr hsplit c with ⟨-, hnone⟩ | ⟨o', hlast'⟩
  · obtain ⟨x, y, rfl, ho, -⟩ := hlast
    rw [hnone o (by simp)] at ho
    cases ho
  · rw [hfree] at hlast'
    cases (hlast.unique hlast').2

/-- Who gives the lock back holds it. -/
theorem Allowed.holding {past : List Calls.Done} {c : Nat} {o : Op} (h : Allowed site past o)
    (ho : (∃ token lifetime, o = .keep c token (some lifetime)) ∨ o = .unlock c) :
    Holding c past := by
  rcases ho with ⟨token, lifetime, rfl⟩ | rfl
  · exact h.1
  · exact h

include hr in
/-- **The lock is held by the thread that took it last.** -/
theorem holder_took_last (c : Nat) :
    System.Each (fun pre (_ : (eventLoop site).Event) => ∀ t, Holding c (System.own t pre) →
      ∃ l, System.LastWrote (writesLocked c) pre l true ∧ l.thread = t) d.shared.2 := by
  refine (System.recorded_induction
    (I := fun _ (tr : List (eventLoop site).Event) => ∀ t, Holding c (System.own t tr) →
      ∃ l, System.LastWrote (writesLocked c) tr l true ∧ l.thread = t) hr ?_ ?_).2
  · rintro t ⟨before, fresh, tail, hnil, -⟩
    simp [System.own] at hnil
  · intro pre ev post hsplit hI t hold
    have hallowed : Allowed site (System.own ev.thread pre) ev.op :=
      allowed_of_reaches hr pre ev post hsplit
    by_cases ht : ev.thread = t
    · subst ht
      rw [System.own_snoc] at hold
      rcases hold.snoc with ⟨fresh, hdone⟩ | ⟨hquiet, hold⟩
      · exact ⟨ev, System.lastWrote_snoc pre (writesLocked_take hdone), rfl⟩
      · obtain ⟨l, hlast, hthread⟩ := hI _ hold
        exact ⟨l, hlast.snoc (writesLocked_quiet hquiet), hthread⟩
    · -- another thread can neither take the lock nor give it back
      rw [System.own_other pre ht] at hold
      obtain ⟨l, hlast, hthread⟩ := hI t hold
      refine ⟨l, hlast.snoc ?_, hthread⟩
      cases hwrites : writesLocked c ev with
      | none => rfl
      | some b =>
        rcases locked_of_writes hwrites with ⟨⟨fresh, hdone⟩, -⟩ | ⟨hback, -⟩
        · exact (free_of_take hr hsplit hdone hlast).elim
        · obtain ⟨l', hlast', hthread'⟩ := hI _ (hallowed.holding hback)
          obtain rfl := (hlast.unique hlast').1
          exact absurd (hthread'.symm.trans hthread) ht

/-- **The token endpoint is asked by one request at a time**: between two requests of different
threads the first has given the lock back. -/
theorem one_fetch
    (hr : (eventLoop site).recorded.Reaches cond (Config.idle (atStart clock, [])) d)
    (hsplit : d.shared.2 = pre ++ ev :: post) {c : Nat} {form : List (String × String)}
    (hop : ev.op = .post c form) {p q : List (eventLoop site).Event} {e : (eventLoop site).Event}
    {form' : List (String × String)} (hpre : pre = p ++ e :: q) (hop' : e.op = .post c form')
    (hthread : e.thread ≠ ev.thread) :
    ∃ f ∈ q, f.thread = e.thread ∧
      ((∃ token lifetime, f.op = .keep c token (some lifetime)) ∨ f.op = .unlock c) := by
  subst hpre
  have he : d.shared.2 = p ++ e :: (q ++ ev :: post) := by simp [hsplit]
  have hallowed : Allowed site (System.own ev.thread (p ++ e :: q)) ev.op :=
    allowed_of_reaches hr _ _ _ hsplit
  have hallowed' : Allowed site (System.own e.thread p) e.op := allowed_of_reaches hr _ _ _ he
  rw [hop] at hallowed
  rw [hop'] at hallowed'
  obtain ⟨l, hlast, hl⟩ := holder_took_last hr c _ _ _ hsplit _ hallowed
  obtain ⟨l', hlast', hl'⟩ := holder_took_last hr c _ _ _ he _ hallowed'
  have hquiet : writesLocked c e = none := writesLocked_quiet (by rw [hop']; exact True.intro)
  -- the first event after `e` that writes the lock: there is one, since the holder has changed
  cases hfind : q.find? fun f => (writesLocked c f).isSome with
  | none =>
    have hnone : ∀ f ∈ e :: q, writesLocked c f = none := by
      intro f hf
      rcases List.mem_cons.mp hf with rfl | hf
      · exact hquiet
      · simpa using List.find?_eq_none.mp hfind f hf
    obtain rfl := ((hlast'.append hnone).unique hlast).1
    exact absurd (hl'.symm.trans hl) hthread
  | some f =>
    obtain ⟨hsome, a, b, rfl, hnone⟩ := List.find?_eq_some_iff_append.mp hfind
    have hf : d.shared.2 = (p ++ e :: a) ++ f :: (b ++ ev :: post) := by simp [hsplit]
    have hlastf : System.LastWrote (writesLocked c) (p ++ e :: a) l' true := by
      refine hlast'.append fun x hx => ?_
      rcases List.mem_cons.mp hx with rfl | hx
      · exact hquiet
      · simpa using hnone x hx
    obtain ⟨b', hwrites⟩ := Option.isSome_iff_exists.mp hsome
    rcases locked_of_writes hwrites with ⟨⟨fresh, hdone⟩, -⟩ | ⟨hback, -⟩
    · exact (free_of_take hr hf hdone hlastf).elim
    · have hallowedf : Allowed site (System.own f.thread (p ++ e :: a)) f.op :=
        allowed_of_reaches hr _ _ _ hf
      obtain ⟨l'', hlast'', hl''⟩ := holder_took_last hr c _ _ _ hf _ (hallowedf.holding hback)
      obtain rfl := (hlastf.unique hlast'').1
      exact ⟨f, by simp, hl''.symm.trans hl', hback⟩

theorem one_fetch_sample :
    ∃ (q : List (eventLoop sampleSite).Event) (e ev : (eventLoop sampleSite).Event)
      (form form' : List (String × String)), ev.op = .post 1 form ∧ e.op = .post 1 form' ∧
      e.thread ≠ ev.thread ∧ ∃ f ∈ q, f.thread = e.thread ∧
        ((∃ token lifetime, f.op = .keep 1 token (some lifetime)) ∨ f.op = .unlock 1) := by
  obtain ⟨d, p₁, p₂, p₃, p₄, p₅, q, e₁, e₂, e₃, e₄, e₅, hr, hsplit, -, -, -, he₃, -, he₅⟩ :=
    sample_run
  obtain ⟨hthread, form', hop'⟩ := posted_of_mark he₃
  obtain ⟨hthread', form, hop⟩ := posted_of_mark he₅
  have hcut : d.shared.2 = (p₁ ++ e₁ :: (p₂ ++ e₂ :: p₃)) ++ e₃ :: (p₄ ++ e₄ :: p₅) ++ e₅ :: q := by
    simp [hsplit]
  have hne : e₃.thread ≠ e₅.thread := by
    rw [hthread, hthread']
    decide
  exact ⟨_, e₃, e₅, form, form', hop, hop', hne, one_fetch hr hcut hop rfl hop' hne⟩

end Credentials
end L1Agent
