import L1Agent.Connectors.Presented

/-! # A credential that is rotated

Over every run of the event loop that begins with an empty cache: a credential that is presented was
read for this very attempt, or is what the cache had kept last for its reference, unexpired and not
dropped since; one that was refused is not presented again from the cache.

`credential_current` says the first, for requests and for connectors that ask for a value, and
`refused_read_again` the second.  What the event loop shares is as it was written last
(`written_last`); the look-up that follows a refusal comes before anything else is done
(`next_after_reject`), so it finds the flag that was raised.  The run at the middle serves both, and
the tokens.
-/
namespace L1Agent
namespace Credentials
open Interleaving Secrets
open Http (Exn HttpClient)

variable {site : Site} {cond : (eventLoop site).recorded.Cond} {clock : Rat}
  {d : Config Calls Exn ((Option Nat × State) × List (eventLoop site).Event)}
  {pre post : List (eventLoop site).Event} {ev : (eventLoop site).Event}

/-- What has been done, with its answer. -/
def deed (ev : (eventLoop site).Event) : Calls.Done := ⟨ev.op, ev.answer⟩

/-- When it was done. -/
def instant (ev : (eventLoop site).Event) : Rat := (ev.choice : Choice).reading

/-- Nothing is cached, and no token kept. -/
def atStart (clock : Rat) : Option Nat × State := (none, { clock })

/-- The event is the outcome of its operation. -/
def Ran (ev : (eventLoop site).Event) : Prop :=
  effect site ev.op ev.choice { ev.before.2 with clock := instant ev } =
    some (ev.answer, ev.after.2)

theorem ran_of_reaches
    (hr : (eventLoop site).recorded.Reaches cond (Config.idle (atStart clock, [])) d) :
    System.Each (fun _ (ev : (eventLoop site).Event) => Ran ev) d.shared.2 := by
  intro pre ev post hsplit
  have hrun := (System.segmented_run (System.recorded_each hr pre ev post hsplit).2).2.1
  exact (Option.ite_none_left_eq_some.mp hrun).2

theorem allowed_of_reaches
    (hr : (eventLoop site).recorded.Reaches cond (Config.idle (atStart clock, [])) d) :
    System.Each (fun pre (ev : (eventLoop site).Event) =>
      Allowed site (System.own ev.thread pre) ev.op) d.shared.2 :=
  System.recorded_follows (fun _ => follows_started) hr

/-! ## What an event writes -/

/-- What the event writes to the cache entry. -/
def writesCache (key : List Char) (ev : (eventLoop site).Event) : Option (Option (Rat × String)) :=
  match ev.op with
  | .store k value => if k = key then some (some (instant ev + site.ttl, value)) else none
  | .invalidate none => some none
  | .invalidate (some k) => if k = key then some none else none
  | _ => none

/-- What the event writes to the access token and its expiry; a token without a lifetime leaves the
expiry as it was. -/
def writesToken (c : Nat) (ev : (eventLoop site).Event) : Option (String × WithTop Rat) :=
  match ev.op with
  | .forget c' => if c' = c then some ("", ev.before.2.expiresAt c) else none
  | .keep c' token lifetime =>
    if c' = c then
      some (token, (lifetime.map (expiry (instant ev))).getD (ev.before.2.expiresAt c))
    else none
  | _ => none

/-- What the event writes to the flag of a refused credential. -/
def writesFresh (c : Nat) (ev : (eventLoop site).Event) : Option Bool :=
  match deed ev with
  | ⟨.lower c', _⟩ => if c' = c then some false else none
  | ⟨.reject c', _⟩ => if c' = c then some true else none
  | ⟨.forget c', _⟩ => if c' = c then some true else none
  | ⟨.lock c', .fetch _⟩ => if c' = c then some false else none
  | _ => none

/-- What the event writes to the lock. -/
def writesLocked (c : Nat) (ev : (eventLoop site).Event) : Option Bool :=
  match deed ev with
  | ⟨.lock c', .fetch _⟩ => if c' = c then some true else none
  | ⟨.keep c' _ (some _), _⟩ => if c' = c then some false else none
  | ⟨.unlock c', _⟩ => if c' = c then some false else none
  | _ => none

theorem update_eq {α β : Type} [DecidableEq α] (f : α → β) (k k' : α) (b : β) :
    Function.update f k b k' = (if k = k' then some b else none).getD (f k') := by
  by_cases h : k = k'
  · subst h
    simp
  · simp [h, Function.update_of_ne (Ne.symm h)]

theorem lock_eq_some {c : Nat} {ch : Choice} {s s' : State} {x : Held}
    (h : effect site (.lock c) ch s = some (x, s')) :
    s.locked c = false ∧ x = s.held c ch.reading ∧ match x with
      | .token _ => s' = s
      | .fetch _ => s' = { s with
          locked := Function.update s.locked c true
          fresh := Function.update s.fresh c false } := by
  obtain ⟨hfree, hheld⟩ := Option.ite_none_left_eq_some.mp h
  rw [Bool.not_eq_true] at hfree
  cases hx : s.held c ch.reading with
  | token token =>
    rw [hx] at hheld
    cases hheld
    exact ⟨hfree, rfl, rfl⟩
  | fetch fresh =>
    rw [hx] at hheld
    cases hheld
    exact ⟨hfree, rfl, rfl⟩

theorem Ran.parts (h : Ran ev) (key : List Char) (c : Nat) :
    ev.after.2.cache key = (writesCache key ev).getD (ev.before.2.cache key) ∧
    (ev.after.2.token c, ev.after.2.expiresAt c) =
      (writesToken c ev).getD (ev.before.2.token c, ev.before.2.expiresAt c) ∧
    ev.after.2.fresh c = (writesFresh c ev).getD (ev.before.2.fresh c) ∧
    ev.after.2.locked c = (writesLocked c ev).getD (ev.before.2.locked c) := by
  obtain ⟨t, o, ch, ⟨r, before⟩, x, ⟨r', after⟩⟩ := ev
  change effect site o ch { before with clock := (ch : Choice).reading } = some (x, after) at h
  cases o with
  | store k value =>
    cases h
    exact ⟨update_eq .., rfl, rfl, rfl⟩
  | invalidate k =>
    cases k with
    | none =>
      cases h
      exact ⟨rfl, rfl, rfl, rfl⟩
    | some k =>
      cases h
      exact ⟨update_eq .., rfl, rfl, rfl⟩
  | lower c' =>
    cases h
    exact ⟨rfl, rfl, update_eq .., rfl⟩
  | reject c' =>
    cases h
    exact ⟨rfl, rfl, update_eq .., rfl⟩
  | forget c' =>
    cases h
    refine ⟨rfl, ?_, update_eq .., rfl⟩
    by_cases hc : c' = c
    · subst hc
      simp [writesToken]
    · simp [writesToken, hc, Function.update_of_ne (Ne.symm hc)]
  | lock c' =>
    obtain ⟨-, -, hnext⟩ := lock_eq_some h
    cases x with
    | token token =>
      cases hnext
      exact ⟨rfl, rfl, rfl, rfl⟩
    | fetch fresh =>
      cases hnext
      exact ⟨rfl, rfl, update_eq .., update_eq ..⟩
  | keep c' token lifetime =>
    cases lifetime with
    | none =>
      cases h
      refine ⟨rfl, ?_, rfl, rfl⟩
      by_cases hc : c' = c
      · subst hc
        simp [writesToken]
      · simp [writesToken, hc, Function.update_of_ne (Ne.symm hc)]
    | some lifetime =>
      cases h
      refine ⟨rfl, ?_, rfl, update_eq ..⟩
      by_cases hc : c' = c
      · subst hc
        simp [writesToken, instant]
      · simp [writesToken, hc, Function.update_of_ne (Ne.symm hc)]
  | unlock c' =>
    cases h
    exact ⟨rfl, rfl, rfl, update_eq ..⟩
  | _ =>
    cases h
    exact ⟨rfl, rfl, rfl, rfl⟩

/-! ## The cache -/

/-- The event drops what the cache has for a key, or replaces it. -/
def Touches (key : List Char) (ev : (eventLoop site).Event) : Prop :=
  ev.op = .invalidate none ∨ ev.op = .invalidate (some key) ∨ ∃ value, ev.op = .store key value

theorem not_touches {key : List Char} (h : writesCache key ev = none) : ¬ Touches key ev := by
  unfold writesCache at h
  rintro (hop | hop | ⟨value, hop⟩) <;> simp [hop] at h

/-- The thread has read the value where the reference says. -/
def ReadBy (tr : List (eventLoop site).Event) (t : Nat) (ref : SecretRef) (value : String) : Prop :=
  ∃ e ∈ tr, e.thread = t ∧ deed e = ⟨.read ref, .ok value⟩

/-- What the cache has: it was read and then stored, less than its time to live ago, and nothing
has touched the entry since. -/
def Found (before : List (eventLoop site).Event) (ref : SecretRef) (value : String) (now : Rat) :
    Prop :=
  ∃ p o q, before = p ++ o :: q ∧ o.op = .store ref.text value ∧ now < instant o + site.ttl ∧
    (∀ e ∈ q, ¬ Touches ref.text e) ∧ ReadBy p o.thread ref value

theorem stored_of_writes {key : List Char} {expires : Rat} {value : String}
    (h : writesCache key ev = some (some (expires, value))) :
    ev.op = .store key value ∧ expires = instant ev + site.ttl := by
  unfold writesCache at h
  cases hop : ev.op with
  | store k v =>
    simp only [hop] at h
    obtain ⟨rfl, heq⟩ := Option.ite_none_right_eq_some.mp h
    cases heq
    exact ⟨rfl, rfl⟩
  | invalidate k =>
    cases k with
    | none =>
      simp only [hop] at h
      cases h
    | some k =>
      simp only [hop] at h
      obtain ⟨-, heq⟩ := Option.ite_none_right_eq_some.mp h
      cases heq
  | _ =>
    simp only [hop] at h
    cases h

theorem Ran.cached (h : Ran ev) {flag : Flag} {key : List Char} {value : String}
    (hdone : deed ev = ⟨.lookUp flag key, some value⟩) :
    ev.before.2.flag flag = false ∧
      ∃ expires, ev.before.2.cache key = some (expires, value) ∧ instant ev < expires := by
  obtain ⟨t, o, ch, ⟨r, before⟩, x, after⟩ := ev
  cases hdone
  have hanswer := congrArg Prod.fst (Option.some.inj h)
  change State.cached _ flag key (ch : Choice).reading = some value at hanswer
  unfold State.cached at hanswer
  cases hcache : before.cache key with
  | none =>
    rw [show State.cache _ key = _ from hcache] at hanswer
    cases hanswer
  | some entry =>
    obtain ⟨expires, value'⟩ := entry
    rw [show State.cache _ key = _ from hcache] at hanswer
    obtain ⟨⟨hflag, hnow⟩, heq⟩ := Option.ite_none_right_eq_some.mp hanswer
    cases heq
    refine ⟨?_, expires, rfl, hnow⟩
    cases flag <;> exact hflag

/-- What a thread has done is an event. -/
theorem event_of_own {t : Nat} {tr : List (eventLoop site).Event} {x : Calls.Done}
    (h : x ∈ System.own t tr) : ∃ e ∈ tr, e.thread = t ∧ deed e = x := by
  obtain ⟨e, he, hdone⟩ := List.mem_map.mp h
  obtain ⟨he, hthread⟩ := List.mem_filter.mp he
  exact ⟨e, he, by simpa using hthread, hdone⟩

theorem readBy_of_own {t : Nat} {tr : List (eventLoop site).Event} {ref : SecretRef}
    {value : String} (h : (⟨.read ref, .ok value⟩ : Calls.Done) ∈ System.own t tr) :
    ReadBy tr t ref value := event_of_own h

/-- What is stored has been read before, by the same thread. -/
theorem readBy_of_store
    (hr : (eventLoop site).recorded.Reaches cond (Config.idle (atStart clock, [])) d)
    (hsplit : d.shared.2 = pre ++ ev :: post) {ref : SecretRef} {text : List Char} {value : String}
    (hparse : SecretRef.parse text = .ok ref) (hop : ev.op = .store ref.text value) :
    ReadBy pre ev.thread ref value := by
  have hallowed : Allowed site (System.own ev.thread pre) ev.op :=
    allowed_of_reaches hr pre ev post hsplit
  rw [hop] at hallowed
  obtain ⟨before, flag, text', ref', hparse', hkey, hpast⟩ := hallowed
  obtain rfl := (parse_key hparse hparse').mp hkey
  refine readBy_of_own ?_
  rw [hpast]
  simp

/-- **What is found in the cache** was read, and is what was kept last. -/
theorem found_of_cached
    (hr : (eventLoop site).recorded.Reaches cond (Config.idle (atStart clock, [])) d)
    (hsplit : d.shared.2 = pre ++ ev :: post) {flag : Flag} {ref : SecretRef} {text : List Char}
    {value : String} (hparse : SecretRef.parse text = .ok ref)
    (hdone : deed ev = ⟨.lookUp flag ref.text, some value⟩) :
    Found pre ref value (instant ev) := by
  obtain ⟨-, expires, hcache, hnow⟩ := (ran_of_reaches hr pre ev post hsplit).cached hdone
  have hlast := System.recorded_written (fun s : Option Nat × State => s.2.cache ref.text)
    (writesCache ref.text) (fun e he => ?_) hr pre ev post hsplit
  · rcases hlast with ⟨hstart, -⟩ | ⟨o, p, q, rfl, hwrote, hnone⟩
    · rw [show ev.before.2.cache ref.text = none from hstart] at hcache
      cases hcache
    · rw [hcache] at hwrote
      obtain ⟨hop, rfl⟩ := stored_of_writes hwrote
      refine ⟨p, o, q, rfl, hop, hnow, fun e he => not_touches (hnone e he), ?_⟩
      exact readBy_of_store hr (by rw [hsplit, List.append_assoc, List.cons_append]) hparse hop
  · have hran : Ran e := (Option.ite_none_left_eq_some.mp (System.segmented_run he).2.1).2
    exact (hran.parts ref.text 0).1

/-! ## What is presented -/

/-- The operation sends a request. -/
def Op.Sends : Op → Prop
  | send .. => True
  | _ => False

/-- An event of the thread, after which it has sent nothing. -/
def Lately (pre : List (eventLoop site).Event) (t : Nat)
    (P : List (eventLoop site).Event → (eventLoop site).Event → Prop) : Prop :=
  ∃ p e q, pre = p ++ e :: q ∧ e.thread = t ∧
    (∀ f ∈ q, f.thread = t → ¬ Op.Sends f.op) ∧ P p e

/-- The value was read where the reference says, since the thread has sent something last; where
that does not have to be, it may be what the cache had. -/
def Current (pre : List (eventLoop site).Event) (t : Nat) (fresh : Bool) (reference : List Char)
    (value : String) : Prop :=
  ∃ ref, SecretRef.parse reference = .ok ref ∧ Lately pre t fun p e =>
    deed e = ⟨.read ref, .ok value⟩ ∨
    fresh = false ∧ (∃ flag, e.op = .lookUp flag ref.text) ∧ Found p ref value (instant e)

/-- What a slot gives; without a reference that is nothing. -/
def SlotCurrent (pre : List (eventLoop site).Event) (t : Nat) (secrets : ConnectionSecrets)
    (fresh : Bool) (slot value : String) : Prop :=
  secrets.references.lookup slot = none ∧ value = "" ∨
  ∃ reference, secrets.references.lookup slot = some reference ∧
    Current pre t fresh reference value

/-- The look-up that was answered with the value. -/
def Hit (pre : List (eventLoop site).Event) (t : Nat) (before after : List Calls.Done) (flag : Flag)
    (ref : SecretRef) (value : String) : Prop :=
  ∃ p l q, pre = p ++ l :: q ∧ l.thread = t ∧ deed l = ⟨.lookUp flag ref.text, some value⟩ ∧
    System.own t p = before ∧ System.own t q = after

theorem not_sends_of_quiet {o : Op} (h : o.quiet) : ¬ o.Sends := by
  cases o <;> first | exact id | exact fun _ => h

theorem not_sent_of_own {t : Nat} {q : List (eventLoop site).Event}
    (h : ∀ x ∈ System.own t q, ¬ x.op.Sends) : ∀ f ∈ q, f.thread = t → ¬ Op.Sends f.op := by
  rintro f hf rfl
  exact h _ (System.own_mem hf)

/-- A value that a thread got is read, or it is a hit. -/
theorem current_or_hit {t : Nat} {flag : Flag} {reference : List Char} {value : String}
    {before tail after : List Calls.Done} (hown : System.own t pre = before ++ tail ++ after)
    (hgot : Got flag reference value tail)
    (hafter : ∀ x ∈ after, ¬ x.op.Sends) :
    Current pre t true reference value ∨
      ∃ ref, SecretRef.parse reference = .ok ref ∧ Hit pre t before after flag ref value := by
  cases hgot with
  | cached ref hparse =>
    obtain ⟨p, l, q, hpre, hthread, hdone, hp, hq⟩ := System.own_split
      (show System.own t pre = before ++ ⟨.lookUp flag ref.text, some value⟩ :: after by
        rw [hown, List.append_assoc, List.singleton_append])
    exact Or.inr ⟨ref, hparse, p, l, q, hpre, hthread, hdone.symm, hp, hq⟩
  | read ref hparse =>
    obtain ⟨p, e, q, hpre, hthread, hdone, -, hq⟩ := System.own_split
      (show System.own t pre = (before ++ [⟨.lookUp flag ref.text, none⟩]) ++
          ⟨.read ref, .ok value⟩ :: ⟨.store ref.text value, ()⟩ :: after by
        rw [hown]
        simp)
    refine Or.inl ⟨ref, hparse, p, e, q, hpre, hthread, not_sent_of_own ?_, Or.inl hdone.symm⟩
    rw [hq]
    intro x hx
    rcases List.mem_cons.mp hx with rfl | hx
    · exact id
    · exact hafter x hx

theorem Current.weaken {t : Nat} {fresh : Bool} {reference : List Char} {value : String}
    (h : Current pre t true reference value) : Current pre t fresh reference value := by
  obtain ⟨ref, hparse, p, e, q, hpre, hthread, hsent, hread | ⟨hfalse, -⟩⟩ := h
  · exact ⟨ref, hparse, p, e, q, hpre, hthread, hsent, Or.inl hread⟩
  · cases hfalse

variable (hr : (eventLoop site).recorded.Reaches cond (Config.idle (atStart clock, [])) d)
  (hsplit : d.shared.2 = pre ++ ev :: post)

include hr hsplit in
/-- **A value that a thread got is current**, and read where the flag says so. -/
theorem current_of_got {t : Nat} {flag : Flag} {reference : List Char} {value : String}
    {before tail after : List Calls.Done} (hown : System.own t pre = before ++ tail ++ after)
    (hgot : Got flag reference value tail)
    (hafter : ∀ x ∈ after, ¬ x.op.Sends) :
    Current pre t false reference value ∧
      (flag = .given true → Current pre t true reference value) := by
  rcases current_or_hit hown hgot hafter with h | ⟨ref, hparse, p, l, q, rfl, rfl, hdone, hp, hq⟩
  · exact ⟨h.weaken, fun _ => h⟩
  · -- a hit is read at most a time to live ago, by whichever thread stored it
    have hl : d.shared.2 = p ++ l :: (q ++ ev :: post) := by rw [hsplit]; simp
    refine ⟨⟨ref, hparse, p, l, q, rfl, rfl, not_sent_of_own (hq ▸ hafter), Or.inr ⟨rfl, ⟨flag, ?_⟩,
      found_of_cached hr hl hparse hdone⟩⟩, ?_⟩
    · exact congrArg Signature.Done.op hdone
    · rintro rfl
      exact absurd ((ran_of_reaches hr p l _ hl).cached hdone).1 Bool.noConfusion

include hr hsplit in
theorem slotCurrent_of_got {t : Nat} {secrets : ConnectionSecrets} {flag : Flag}
    {slot value : String} {before tail after : List Calls.Done}
    (hown : System.own t pre = before ++ tail ++ after)
    (hgot : SlotGot secrets flag slot value tail)
    (hafter : ∀ x ∈ after, ¬ x.op.Sends) :
    SlotCurrent pre t secrets (flag = .given true) slot value := by
  cases hgot with
  | unset hslot hvalue => exact Or.inl ⟨hslot, hvalue⟩
  | set reference _ hslot hgot =>
    obtain ⟨hcurrent, hfresh⟩ := current_of_got hr hsplit hown hgot hafter
    refine Or.inr ⟨reference, hslot, ?_⟩
    by_cases hflag : flag = .given true
    · rw [decide_eq_true hflag]
      exact hfresh hflag
    · rw [decide_eq_false hflag]
      exact hcurrent

/-! ## A run -/

def sampleHttp : HttpClient := ⟨"https://host", 2, none⟩

/-- One client has a token, the other fetches its tokens. -/
def sampleSite : Site where
  clients c :=
    if c = 0 then
      ⟨sampleHttp, .bearer "token" "Bearer", [("token", "env:TOKEN".toList)], by
        intro p hp
        cases List.mem_singleton.mp hp
        exact ⟨⟨.env, "TOKEN".toList⟩, by decide⟩⟩
    else
      ⟨sampleHttp, .oauth { tokenPath := "/token", clientId := "app" },
        [("client_secret", "vault:app/secret".toList)], by
        intro p hp
        cases List.mem_singleton.mp hp
        exact ⟨⟨.vault, "app/secret".toList⟩, by decide⟩⟩
  configured _ := true
  ttl := 30
  encode username password := username ++ ":" ++ password
  builtins := ⟨fun _ => "", fun _ => none, fun _ => false⟩
  float _ := .error .unreadable

def grantedToken : Posted := ⟨200, .ok (.obj [("access_token", .str "abc")])⟩

def sampleSteps : List (Nat × Choice) :=
  [(0, { reading := 1 }), (0, { reading := 2, value := .ok "old" }), (0, { reading := 3 }),
    (0, { reading := 4 }), (0, { reading := 5, raw := .ok ⟨401, [], .ok .null⟩ }),
    (0, { reading := 6 }), (0, { reading := 7 }), (0, { reading := 8, value := .ok "new" }),
    (0, { reading := 9 }), (0, { reading := 10 }), (0, { reading := 11 }),
    (1, { reading := 12 }), (1, { reading := 13 }),
    (1, { reading := 14, value := .ok "secret" }), (1, { reading := 15 }),
    (1, { reading := 16, posted := .ok grantedToken }), (1, { reading := 17 }),
    (1, { reading := 18 }),
    (2, { reading := 900 }), (2, { reading := 900 }),
    (2, { reading := 901, value := .ok "secret" }), (2, { reading := 902 }),
    (2, { reading := 903, posted := .ok grantedToken })]

def sampleMoves : List (eventLoop sampleSite).recorded.Move :=
  .start ((request sampleSite 0 { method := "GET", path := "/a" }).bind fun _ => .ret ()) ::
    .start ((request sampleSite 1 { method := "GET", path := "/b" }).bind fun _ => .ret ()) ::
    .start ((request sampleSite 1 { method := "GET", path := "/c" }).bind fun _ => .ret ()) ::
    sampleSteps.map fun x => .op x.1 x.2

theorem starts_sampleMoves : (eventLoop sampleSite).recorded.Starts sampleMoves :=
  .start (Starts.request ..) (.start (Starts.request ..) (.start (Starts.request ..) .each))

/-- Requests with their answers, and requests to the token endpoint. -/
inductive Mark where
  | sent (status : Nat)
  | posted
  deriving DecidableEq

def mark (ev : (eventLoop sampleSite).Event) : Option (Nat × Nat × Mark) :=
  match ev with
  | ⟨t, .send c _, _, _, .ok raw, _⟩ => some (t, c, .sent raw.status)
  | ⟨t, .send c _, _, _, .error _, _⟩ => some (t, c, .sent 0)
  | ⟨t, .post c _, _, _, _, _⟩ => some (t, c, .posted)
  | _ => none

theorem sample_play :
    ((eventLoop sampleSite).recorded.play (Config.idle (atStart 0, [])) sampleMoves).map
      (fun d => d.shared.2.map mark) =
    some (List.replicate 4 none ++ some (0, 0, .sent 401) ::
      (List.replicate 5 none ++ some (0, 0, .sent 200) ::
        (List.replicate 4 none ++ some (1, 1, .posted) ::
          (List.replicate 1 none ++ some (1, 1, .sent 200) ::
            (List.replicate 4 none ++ some (2, 1, .posted) :: []))))) := by
  decide +kernel

/-- A run cut at what is to be seen in it. -/
theorem split_of_map {α β : Type} {f : α → β} {tr : List α} {xs ys : List β} {m : β}
    (h : tr.map f = xs ++ m :: ys) :
    ∃ p e q, tr = p ++ e :: q ∧ p.map f = xs ∧ f e = m ∧ q.map f = ys := by
  obtain ⟨p, rest, rfl, hp, hrest⟩ := List.map_eq_append_iff.mp h
  obtain ⟨e, q, rfl, he, hq⟩ := List.map_eq_cons_iff.mp hrest
  exact ⟨p, e, q, rfl, hp, he, hq⟩

theorem sent_of_mark {ev : (eventLoop sampleSite).Event} {t c status : Nat}
    (h : mark ev = some (t, c, .sent status)) : ev.thread = t ∧ ∃ sent, ev.op = .send c sent ∧
      (status ≠ 0 → ∃ raw, deed ev = ⟨.send c sent, .ok raw⟩ ∧ raw.status = status) := by
  obtain ⟨u, o, ch, before, x, after⟩ := ev
  cases o with
  | send c' sent =>
    cases x with
    | ok raw =>
      cases h
      exact ⟨rfl, sent, rfl, fun _ => ⟨raw, rfl, rfl⟩⟩
    | error e =>
      cases h
      exact ⟨rfl, sent, rfl, fun hne => absurd rfl hne⟩
  | _ => cases h

theorem posted_of_mark {ev : (eventLoop sampleSite).Event} {t c : Nat}
    (h : mark ev = some (t, c, .posted)) : ev.thread = t ∧ ∃ form, ev.op = .post c form := by
  obtain ⟨u, o, ch, before, x, after⟩ := ev
  cases o with
  | send c' sent => cases x <;> cases h
  | post c' form =>
    cases h
    exact ⟨rfl, form, rfl⟩
  | _ => cases h

theorem not_sends_of_mark {ev : (eventLoop sampleSite).Event} (h : mark ev = none) :
    ¬ Op.Sends ev.op := by
  obtain ⟨u, o, ch, before, x, after⟩ := ev
  cases o with
  | send c' sent => cases x <;> cases h
  | _ => exact id

/-- The run, cut at the refusal, the request that follows it, the fetch of a token, the request
with it and the next fetch. -/
theorem sample_run : ∃
    (d : Config Calls Exn ((Option Nat × State) × List (eventLoop sampleSite).Event))
    (p₁ p₂ p₃ p₄ p₅ q : List (eventLoop sampleSite).Event)
    (e₁ e₂ e₃ e₄ e₅ : (eventLoop sampleSite).Event),
    (eventLoop sampleSite).recorded.Reaches (eventLoop sampleSite).recorded.anyStep
      (Config.idle (atStart 0, [])) d ∧
    d.shared.2 = p₁ ++ e₁ :: (p₂ ++ e₂ :: (p₃ ++ e₃ :: (p₄ ++ e₄ :: (p₅ ++ e₅ :: q)))) ∧
    mark e₁ = some (0, 0, .sent 401) ∧ (∀ f ∈ p₂, mark f = none) ∧
    mark e₂ = some (0, 0, .sent 200) ∧ mark e₃ = some (1, 1, .posted) ∧
    mark e₄ = some (1, 1, .sent 200) ∧ mark e₅ = some (2, 1, .posted) := by
  obtain ⟨d, hd, hseen⟩ := Option.map_eq_some_iff.mp sample_play
  obtain ⟨p₁, e₁, rest, h₁, -, he₁, hrest⟩ := split_of_map hseen
  obtain ⟨p₂, e₂, rest, rfl, hp₂, he₂, hrest⟩ := split_of_map hrest
  obtain ⟨p₃, e₃, rest, rfl, -, he₃, hrest⟩ := split_of_map hrest
  obtain ⟨p₄, e₄, rest, rfl, -, he₄, hrest⟩ := split_of_map hrest
  obtain ⟨p₅, e₅, q, rfl, -, he₅, -⟩ := split_of_map hrest
  refine ⟨d, p₁, p₂, p₃, p₄, p₅, q, e₁, e₂, e₃, e₄, e₅,
    System.play_reaches _ starts_sampleMoves hd, h₁, he₁, fun f hf => ?_, he₂, he₃, he₄, he₅⟩
  exact List.eq_of_mem_replicate (hp₂ ▸ List.mem_map_of_mem hf)

/-! ## Passwords and tokens -/

/-- The slot of a credential that is a password or a token, and how its value is presented. -/
def Site.slotOf (site : Site) (c : Nat) : Option (String × (String → String)) :=
  match (site.clients c).auth with
  | .basic username slot => some (slot, site.encode username)
  | .bearer slot scheme => some (slot, fun token => scheme ++ " " ++ token)
  | _ => none

/-- The header that a request presents its credential in. -/
def presented (sent : Http.Sent) : Option String := sent.headers.lookup "Authorization"

theorem presented_sent (http : HttpClient) (r : Http.Request) (value : String) :
    presented (http.sent r (authorization value)) = some value := rfl

theorem SlotGot.not_sends {secrets : ConnectionSecrets} {flag : Flag} {slot value : String}
    {tail : List Calls.Done} (h : SlotGot secrets flag slot value tail) :
    ∀ x ∈ tail, ¬ x.op.Sends := by
  cases h with
  | unset => exact fun x hx => absurd hx List.not_mem_nil
  | set reference _ hslot hgot => cases hgot <;> simp [Op.Sends]

/-- The value of a slot, and how it is presented. -/
theorem Presented.slot {c : Nat} {auth : List (String × String)} {tail : List Calls.Done}
    (h : Presented site c auth tail) {slot : String} {shown : String → String}
    (hslot : site.slotOf c = some (slot, shown)) :
    ∃ value got, auth = authorization (shown value) ∧ tail = got ++ [⟨.lower c, ()⟩] ∧
      SlotGot (site.clients c).secrets (.own c) slot value got := by
  unfold Site.slotOf at hslot
  cases h with
  | none hauth =>
    rw [hauth] at hslot
    cases hslot
  | basic username slot' password got hauth hgot =>
    rw [hauth] at hslot
    cases hslot
    exact ⟨password, got, rfl, rfl, hgot⟩
  | bearer slot' scheme token got hauth hgot =>
    rw [hauth] at hslot
    cases hslot
    exact ⟨token, got, rfl, rfl, hgot⟩
  | kept o token hauth =>
    rw [hauth] at hslot
    cases hslot
  | fetched o fresh token lifetime got hauth hfetched =>
    rw [hauth] at hslot
    cases hslot

/-- The access token of an OAuth credential: it was there, or it has been fetched. -/
theorem Presented.token {c : Nat} {auth : List (String × String)} {tail : List Calls.Done}
    (h : Presented site c auth tail) {o : OAuth} (hauth : (site.clients c).auth = .oauth o) :
    ∃ token, auth = authorization ("Bearer " ++ token) ∧ (tail = [⟨.lock c, .token token⟩] ∨
      ∃ got lifetime, tail = got ++ [⟨.keep c token (some lifetime), ()⟩]) := by
  cases h with
  | kept o' token hauth' => exact ⟨token, rfl, Or.inl rfl⟩
  | fetched o' fresh token lifetime got hauth' hfetched =>
    exact ⟨token, rfl, Or.inr ⟨⟨.lock c, .fetch fresh⟩ :: got, lifetime, rfl⟩⟩
  | none hauth' =>
    rw [hauth] at hauth'
    cases hauth'
  | basic username slot password got hauth' hgot =>
    rw [hauth] at hauth'
    cases hauth'
  | bearer slot scheme token got hauth' hgot =>
    rw [hauth] at hauth'
    cases hauth'

include hr hsplit in
/-- What a request comes after. -/
theorem attempt_of_send {c : Nat} {sent : Http.Sent} (hop : ev.op = .send c sent) :
    ∃ head auth tail r, AtHead site c head ∧ Presented site c auth tail ∧
      System.own ev.thread pre = head ++ tail ∧ sent = (site.clients c).http.sent r auth := by
  have hallowed : Allowed site (System.own ev.thread pre) ev.op :=
    allowed_of_reaches hr pre ev post hsplit
  rw [hop] at hallowed
  exact hallowed

/-- **A credential that is presented is current**: the password or the token of a request was read
for it, or is what the cache has kept last for its reference, for less than the time to live; so is
what a connector has asked for, which was read at once where it asked for that. -/
theorem credential_current
    (hr : (eventLoop site).recorded.Reaches cond (Config.idle (atStart clock, [])) d)
    (hsplit : d.shared.2 = pre ++ ev :: post) :
    (∀ c sent slot shown, ev.op = .send c sent → site.slotOf c = some (slot, shown) →
      ∃ value, presented sent = some (shown value) ∧
        SlotCurrent pre ev.thread (site.clients c).secrets false slot value) ∧
    (∀ c fresh values, ev.op = .use c fresh values → ∀ p ∈ values,
      SlotCurrent pre ev.thread (site.clients c).secrets fresh p.1 p.2) := by
  refine ⟨fun c sent slot shown hop hslot => ?_, fun c fresh values hop p hp => ?_⟩
  · obtain ⟨head, auth, tail, r, -, hpresented, hown, rfl⟩ := attempt_of_send hr hsplit hop
    obtain ⟨value, got, rfl, rfl, hgot⟩ := hpresented.slot hslot
    refine ⟨value, presented_sent _ _ _, ?_⟩
    have hcurrent := slotCurrent_of_got hr hsplit (hown.trans (List.append_assoc ..).symm) hgot
      fun x hx => by
        rw [List.mem_singleton.mp hx]
        exact id
    exact hcurrent
  · have hallowed : Allowed site (System.own ev.thread pre) ev.op :=
      allowed_of_reaches hr pre ev post hsplit
    rw [hop] at hallowed
    obtain ⟨hquiet, hvalues⟩ := hallowed
    obtain ⟨before, tail, after, hown, hgot⟩ := hvalues p hp
    have hcurrent := slotCurrent_of_got hr hsplit hown hgot fun x hx =>
      not_sends_of_quiet (hquiet x (hown ▸ List.mem_append_right _ hx))
    rwa [show decide (Flag.given fresh = .given true) = fresh by cases fresh <;> rfl] at hcurrent

theorem credential_current_sample :
    ∃ (pre : List (eventLoop sampleSite).Event) (ev : (eventLoop sampleSite).Event)
      (sent : Http.Sent) (value : String), ev.op = .send 0 sent ∧
      presented sent = some ("Bearer" ++ " " ++ value) ∧
      SlotCurrent pre ev.thread (sampleSite.clients 0).secrets false "token" value := by
  obtain ⟨d, p₁, p₂, p₃, p₄, p₅, q, e₁, e₂, e₃, e₄, e₅, hr, hsplit, he₁, -⟩ := sample_run
  obtain ⟨-, sent, hop, -⟩ := sent_of_mark he₁
  obtain ⟨value, hvalue, hcurrent⟩ := (credential_current hr hsplit).1 0 sent _ _ hop rfl
  exact ⟨p₁, e₁, sent, value, hop, hvalue, hcurrent⟩

/-! ## After a refusal -/

/-- The last element with a property is in one place. -/
theorem last_unique {α : Type} {P : α → Prop} {xs xs' ys ys' : List α} {a a' : α}
    (h : xs ++ a :: ys = xs' ++ a' :: ys') (ha : P a) (ha' : P a') (hys : ∀ b ∈ ys, ¬ P b)
    (hys' : ∀ b ∈ ys', ¬ P b) : xs = xs' ∧ a = a' ∧ ys = ys' := by
  rcases List.append_eq_append_iff.mp h with ⟨z, rfl, hz⟩ | ⟨z, rfl, hz⟩
  · cases z with
    | nil =>
      obtain ⟨rfl, rfl⟩ := List.cons.inj hz
      exact ⟨(List.append_nil _).symm, rfl, rfl⟩
    | cons b z =>
      obtain ⟨rfl, rfl⟩ := List.cons.inj hz
      exact absurd ha' (hys a' (by simp))
  · cases z with
    | nil =>
      obtain ⟨rfl, rfl⟩ := List.cons.inj hz
      exact ⟨List.append_nil _, rfl, rfl⟩
    | cons b z =>
      obtain ⟨rfl, rfl⟩ := List.cons.inj hz
      exact absurd ha (hys' a (by simp))

theorem Fetched.not_sends {c : Nat} {o : OAuth} {fresh : Bool} {token : String}
    {lifetime : Option (WithTop Rat)} {tail : List Calls.Done}
    (h : Fetched site c o fresh token lifetime tail) :
    ∀ x ∈ tail, ¬ x.op.Sends := by
  obtain ⟨clientSecret, password, asked, asked', posted, hsecret, hpassword, hnone, -⟩ := h
  intro x hx
  rcases List.mem_append.mp hx with hasked | hpost
  · rcases List.mem_append.mp hasked with hasked | hasked'
    · exact hsecret.not_sends x hasked
    · cases password with
      | none =>
        rw [hnone rfl] at hasked'
        exact absurd hasked' List.not_mem_nil
      | some p => exact (hpassword p rfl).not_sends x hasked'
  · rw [List.mem_singleton.mp hpost]
    exact id

theorem Presented.not_sends {c : Nat} {auth : List (String × String)} {tail : List Calls.Done}
    (h : Presented site c auth tail) : ∀ x ∈ tail, ¬ x.op.Sends := by
  cases h with
  | none => exact fun x hx => absurd hx List.not_mem_nil
  | basic username slot password tail hauth hgot =>
    refine List.forall_mem_append.mpr ⟨hgot.not_sends, ?_⟩
    exact List.forall_mem_singleton.mpr id
  | bearer slot scheme token tail hauth hgot =>
    refine List.forall_mem_append.mpr ⟨hgot.not_sends, ?_⟩
    exact List.forall_mem_singleton.mpr id
  | kept o token hauth => exact List.forall_mem_singleton.mpr id
  | fetched o fresh token lifetime tail hauth hfetched =>
    refine List.forall_mem_append.mpr ⟨List.forall_mem_cons.mpr ⟨id, hfetched.not_sends⟩, ?_⟩
    exact List.forall_mem_singleton.mpr id

theorem refusal_slot {c : Nat} {slot : String} {shown : String → String}
    (h : site.slotOf c = some (slot, shown)) : refusal site c = [⟨.reject c, ()⟩] := by
  unfold Site.slotOf at h
  unfold refusal
  cases hauth : (site.clients c).auth with
  | basic username slot => rfl
  | bearer slot scheme => rfl
  | none =>
    rw [hauth] at h
    cases h
  | oauth o =>
    rw [hauth] at h
    cases h

theorem refusal_oauth {c : Nat} {o : OAuth} (h : (site.clients c).auth = .oauth o) :
    refusal site c = [⟨.forget c, ()⟩] := by
  unfold refusal
  rw [h]

theorem refusal_not_sends (c : Nat) : ∀ x ∈ refusal site c, ¬ x.op.Sends := by
  unfold refusal
  split <;> simp [Op.Sends]

/-- The thread sent a request that was answered with a 401, and has sent nothing since. -/
def Refused (pre : List (eventLoop site).Event) (t : Nat) (q : List (eventLoop site).Event) :
    Prop :=
  ∃ p e c sent raw, pre = p ++ e :: q ∧ e.thread = t ∧ deed e = ⟨.send c sent, .ok raw⟩ ∧
    raw.status = 401 ∧ ∀ f ∈ q, f.thread = t → ¬ Op.Sends f.op

include hr hsplit in
/-- What a request does after it was refused. -/
theorem after_refusal {c : Nat} {sent : Http.Sent} (hop : ev.op = .send c sent)
    {q : List (eventLoop site).Event} (hrefused : Refused pre ev.thread q) :
    ∃ auth tail r, Presented site c auth tail ∧ System.own ev.thread q = refusal site c ++ tail ∧
      sent = (site.clients c).http.sent r auth := by
  obtain ⟨head, auth, tail, r, hhead, hpresented, hown, rfl⟩ := attempt_of_send hr hsplit hop
  obtain ⟨p, e, c', sent', raw, rfl, hthread, hdone, hstatus, hquiet⟩ := hrefused
  refine ⟨auth, tail, r, hpresented, ?_, rfl⟩
  have hq : ∀ x ∈ System.own ev.thread q, ¬ x.op.Sends := by
    intro x hx
    obtain ⟨f, hf, rfl⟩ := List.mem_map.mp hx
    obtain ⟨hf, hthread'⟩ := List.mem_filter.mp hf
    exact hquiet f hf (by simpa using hthread')
  have hpast : System.own ev.thread (p ++ e :: q) =
      System.own ev.thread p ++ ⟨.send c' sent', .ok raw⟩ :: System.own ev.thread q := by
    rw [← hdone]
    simp [System.own, hthread, deed]
  rw [hpast] at hown
  -- the send that was refused is the last one that the thread made before this one
  cases hhead with
  | first =>
    refine absurd True.intro (hpresented.not_sends ⟨.send c' sent', .ok raw⟩ ?_)
    rw [← List.nil_append tail, ← hown]
    simp
  | refused before sent'' raw' h =>
    rw [List.append_assoc, List.cons_append] at hown
    have hrest : ∀ x ∈ refusal site c ++ tail, ¬ x.op.Sends :=
      List.forall_mem_append.mpr ⟨refusal_not_sends c, hpresented.not_sends⟩
    exact (last_unique (P := fun x : Calls.Done => x.op.Sends) hown True.intro True.intro hq
      hrest).2.2
  | again before sent'' raw' attempt retryAfter h =>
    rw [List.append_assoc, List.cons_append] at hown
    have hrest : ∀ x ∈ [(⟨.sleep attempt retryAfter, .ok ()⟩ : Calls.Done)] ++ tail,
        ¬ x.op.Sends :=
      List.forall_mem_append.mpr ⟨List.forall_mem_singleton.mpr id, hpresented.not_sends⟩
    obtain ⟨-, heq, -⟩ := last_unique (P := fun x : Calls.Done => x.op.Sends) hown True.intro
      True.intro hq hrest
    -- a wait comes after one of the statuses that are tried again, and 401 is none of them
    cases heq
    rw [hstatus] at h
    exact absurd h (by decide)

include hr in
/-- Nothing comes between a refusal and what is done about it. -/
theorem next_after_reject {p q : List (eventLoop site).Event} {e : (eventLoop site).Event}
    (hfirst : d.shared.2 = p ++ e :: (q ++ post)) (hholds : Op.holds e.op = true) {x : Calls.Done}
    {rest : List Calls.Done} (hown : System.own e.thread q = x :: rest) :
    ∃ l q', q = l :: q' ∧ l.thread = e.thread ∧ deed l = x := by
  cases q with
  | nil => cases hown
  | cons l q' =>
    have hl : d.shared.2 = (p ++ [e]) ++ l :: (q' ++ post) := by simp [hfirst]
    have hthread : l.thread = e.thread := System.segmented_next hr _ l _ hl p e rfl hholds
    have hhead : System.own e.thread (l :: q') = deed l :: System.own e.thread q' := by
      simp [System.own, hthread, deed]
    exact ⟨l, q', rfl, hthread, (List.cons.inj (hhead.symm.trans hown)).1⟩

include hr in
/-- The parts of the state are as they were written last. -/
theorem written_last (hsplit : d.shared.2 = pre ++ ev :: post) (c : Nat) :
    (ev.before.2.fresh c = false ∧ (∀ e ∈ pre, writesFresh c e = none) ∨
      ∃ o, System.LastWrote (writesFresh c) pre o (ev.before.2.fresh c)) ∧
    ((ev.before.2.token c, ev.before.2.expiresAt c) = ("", 0) ∧
        (∀ e ∈ pre, writesToken c e = none) ∨
      ∃ o, System.LastWrote (writesToken c) pre o
        (ev.before.2.token c, ev.before.2.expiresAt c)) := by
  have hparts : ∀ e : (eventLoop site).Event,
      (eventLoop site).run e.thread e.op e.choice e.before = some (e.answer, e.after) → Ran e :=
    fun e he => (Option.ite_none_left_eq_some.mp (System.segmented_run he).2.1).2
  exact ⟨System.recorded_written (fun s : Option Nat × State => s.2.fresh c) (writesFresh c)
      (fun e he => ((hparts e he).parts [] c).2.2.1) hr pre ev post hsplit,
    System.recorded_written (fun s : Option Nat × State => (s.2.token c, s.2.expiresAt c))
      (writesToken c) (fun e he => ((hparts e he).parts [] c).2.1) hr pre ev post hsplit⟩

include hr in
/-- A credential that was refused is not looked up. -/
theorem not_hit_after_reject {p q : List (eventLoop site).Event} {e : (eventLoop site).Event}
    (hfirst : d.shared.2 = p ++ e :: (q ++ post)) {c : Nat} (hop : e.op = .reject c)
    {key : List Char} {value : String} {rest : List Calls.Done} :
    System.own e.thread q ≠ ⟨.lookUp (.own c) key, some value⟩ :: rest := by
  intro hown
  obtain ⟨l, q', rfl, -, hdone⟩ := next_after_reject hr hfirst (by rw [hop]; rfl) hown
  have hl : d.shared.2 = (p ++ [e]) ++ l :: (q' ++ post) := by simp [hfirst]
  have hflag : l.before.2.fresh c = false := ((ran_of_reaches hr _ _ _ hl).cached hdone).1
  have hraised : writesFresh c e = some true := by
    obtain ⟨t, o, ch, before, x, after⟩ := e
    cases hop
    exact if_pos rfl
  rcases (written_last hr hl c).1 with ⟨-, hnone⟩ | ⟨o, hlast⟩
  · rw [hnone e (by simp)] at hraised
    cases hraised
  · rcases hlast.since hraised with ⟨-, htrue⟩ | ⟨x, y, hnil, -⟩
    · rw [hflag] at htrue
      cases htrue
    · simp at hnil

theorem keep_of_writes {c : Nat} {token : String} {expires : WithTop Rat}
    (h : writesToken c ev = some (token, expires)) (hsome : token ≠ "") :
    ∃ lifetime, ev.op = .keep c token lifetime ∧
      expires = (lifetime.map (expiry (instant ev))).getD (ev.before.2.expiresAt c) := by
  unfold writesToken at h
  cases hop : ev.op with
  | forget c' =>
    simp only [hop] at h
    obtain ⟨-, heq⟩ := Option.ite_none_right_eq_some.mp h
    cases heq
    exact absurd rfl hsome
  | keep c' token' lifetime =>
    simp only [hop] at h
    obtain ⟨rfl, heq⟩ := Option.ite_none_right_eq_some.mp h
    cases heq
    exact ⟨lifetime, rfl, rfl⟩
  | _ =>
    simp only [hop] at h
    cases h

theorem Ran.locked (h : Ran ev) {c : Nat} {token : String}
    (hdone : deed ev = ⟨.lock c, .token token⟩) :
    token ≠ "" ∧ ev.before.2.token c = token ∧
      (instant ev : WithTop Rat) < ev.before.2.expiresAt c := by
  obtain ⟨t, o, ch, ⟨r, before⟩, x, after⟩ := ev
  cases hdone
  obtain ⟨-, hheld, -⟩ := lock_eq_some h
  unfold State.held at hheld
  by_cases hfits : before.token c ≠ "" ∧ (ch : Choice).reading < before.expiresAt c
  · have heq : Held.token token = .token (before.token c) := hheld.trans (if_pos hfits)
    cases heq
    exact ⟨hfits.1, rfl, hfits.2⟩
  · have heq : Held.token token = .fetch (before.fresh c) := hheld.trans (if_neg hfits)
    cases heq

include hr in
/-- A token that is there after the last one was forgotten has been kept since. -/
theorem kept_since_forget {p q : List (eventLoop site).Event} {e : (eventLoop site).Event}
    (hsplit : d.shared.2 = (p ++ e :: q) ++ ev :: post) {c : Nat} (hop : e.op = .forget c)
    (hsome : ev.before.2.token c ≠ "") :
    ∃ lifetime, ∃ k ∈ q, k.op = .keep c (ev.before.2.token c) lifetime := by
  have hforgot : writesToken c e = some ("", e.before.2.expiresAt c) := by
    unfold writesToken
    simp [hop]
  rcases (written_last hr hsplit c).2 with ⟨-, hnone⟩ | ⟨o, hlast⟩
  · rw [hnone e (by simp)] at hforgot
    cases hforgot
  · rcases hlast.since hforgot with ⟨-, heq⟩ | ⟨x, y, rfl, hwrote, -⟩
    · exact absurd (congrArg Prod.fst heq) hsome
    · obtain ⟨lifetime, hkeep, -⟩ := keep_of_writes hwrote hsome
      exact ⟨lifetime, o, by simp, hkeep⟩

/-- **A credential that was refused is not presented again from the cache**: the attempt after a 401
presents what the backend has given since, and with OAuth a token that was kept since. -/
theorem refused_read_again
    (hr : (eventLoop site).recorded.Reaches cond (Config.idle (atStart clock, [])) d)
    (hsplit : d.shared.2 = pre ++ ev :: post) {c : Nat} {sent : Http.Sent}
    (hop : ev.op = .send c sent) {q : List (eventLoop site).Event}
    (hrefused : Refused pre ev.thread q) :
    (∀ slot shown reference, site.slotOf c = some (slot, shown) →
      (site.clients c).secrets.references.lookup slot = some reference →
      ∃ value ref, presented sent = some (shown value) ∧ SecretRef.parse reference = .ok ref ∧
        ReadBy q ev.thread ref value) ∧
    ∀ o, (site.clients c).auth = .oauth o →
      ∃ token lifetime k, presented sent = some ("Bearer " ++ token) ∧ k ∈ q ∧
        k.op = .keep c token lifetime := by
  obtain ⟨auth, tail, r, hpresented, hown, rfl⟩ := after_refusal hr hsplit hop hrefused
  obtain ⟨p, e, -, -, -, rfl, -⟩ := hrefused
  refine ⟨fun slot shown reference hslot hreference => ?_, fun o hauth => ?_⟩
  · obtain ⟨value, got, rfl, rfl, hgot⟩ := hpresented.slot hslot
    rw [refusal_slot hslot] at hown
    cases hgot with
    | unset hnone =>
      rw [hreference] at hnone
      cases hnone
    | set reference' _ hsome hgot =>
      obtain rfl : reference = reference' := Option.some.inj (hreference.symm.trans hsome)
      cases hgot with
      | cached ref hparse =>
        -- the look-up comes right behind the refusal, which has raised the flag
        have hown' : System.own ev.thread q = [] ++ ⟨.reject c, ()⟩ ::
            ⟨.lookUp (.own c) ref.text, some value⟩ :: [⟨.lower c, ()⟩] := hown
        obtain ⟨p', f, q', rfl, hthread, hdone, -, hrest⟩ := System.own_split hown'
        have hfirst : d.shared.2 = (p ++ e :: p') ++ f :: (q' ++ ev :: post) := by simp [hsplit]
        exact absurd (hthread ▸ hrest)
          (not_hit_after_reject hr hfirst (congrArg Signature.Done.op hdone).symm)
      | read ref hparse =>
        refine ⟨value, ref, presented_sent _ _ _, hparse, readBy_of_own ?_⟩
        rw [hown]
        simp
  · obtain ⟨token, rfl, rfl | ⟨got, lifetime, rfl⟩⟩ := hpresented.token hauth
    · -- the lock gave way to a token: one that was kept after this refusal forgot the last
      have hown' : System.own ev.thread q = [] ++ ⟨.forget c, ()⟩ :: [⟨.lock c, .token token⟩] := by
        rw [hown, refusal_oauth hauth]
        rfl
      obtain ⟨p', f, q', rfl, hthread, hdone, -, hrest⟩ := System.own_split hown'
      obtain ⟨p'', l, q'', rfl, -, hdone', -⟩ := System.own_split
        (show System.own ev.thread q' = [] ++ ⟨.lock c, .token token⟩ :: [] from hrest)
      have hl : d.shared.2 = ((p ++ e :: p') ++ f :: p'') ++ l :: (q'' ++ ev :: post) := by
        simp [hsplit]
      obtain ⟨hsome, htoken, -⟩ := (ran_of_reaches hr _ _ _ hl).locked hdone'.symm
      obtain ⟨lifetime, k, hk, hop'⟩ := kept_since_forget hr hl
        (congrArg Signature.Done.op hdone).symm (by rw [htoken]; exact hsome)
      rw [htoken] at hop'
      exact ⟨token, lifetime, k, presented_sent _ _ _, by simp [hk], hop'⟩
    · obtain ⟨k, hk, -, hdone⟩ := event_of_own (x := ⟨.keep c token (some lifetime), ()⟩)
        (by rw [hown]; simp)
      exact ⟨token, some lifetime, k, presented_sent _ _ _, hk, congrArg Signature.Done.op hdone⟩

theorem refused_read_again_sample :
    ∃ (pre q : List (eventLoop sampleSite).Event) (ev : (eventLoop sampleSite).Event)
      (sent : Http.Sent) (value : String) (ref : SecretRef), ev.op = .send 0 sent ∧
      Refused pre ev.thread q ∧ presented sent = some ("Bearer" ++ " " ++ value) ∧
      SecretRef.parse "env:TOKEN".toList = .ok ref ∧ ReadBy q ev.thread ref value := by
  obtain ⟨d, p₁, p₂, p₃, p₄, p₅, q, e₁, e₂, e₃, e₄, e₅, hr, hsplit, he₁, hp₂, he₂, -⟩ :=
    sample_run
  obtain ⟨hthread, first, -, hraw⟩ := sent_of_mark he₁
  obtain ⟨raw, hdone, hstatus⟩ := hraw (by decide)
  obtain ⟨hthread', sent, hop, -⟩ := sent_of_mark he₂
  have hrefused : Refused (p₁ ++ e₁ :: p₂) e₂.thread p₂ :=
    ⟨p₁, e₁, 0, first, raw, rfl, hthread.trans hthread'.symm, hdone, hstatus,
      fun f hf _ => not_sends_of_mark (hp₂ f hf)⟩
  have hcut : d.shared.2 = (p₁ ++ e₁ :: p₂) ++
      e₂ :: (p₃ ++ e₃ :: (p₄ ++ e₄ :: (p₅ ++ e₅ :: q))) := by simp [hsplit]
  obtain ⟨value, ref, hvalue, hparse, hread⟩ :=
    (refused_read_again hr hcut hop hrefused).1 "token" _ "env:TOKEN".toList rfl rfl
  exact ⟨_, p₂, e₂, sent, value, ref, hop, hrefused, hvalue, hparse, hread⟩

end Credentials
end L1Agent
