import L1Agent.Connectors.Credentials
import L1Agent.Library.Written

/-! # What a request presents

Each operation that hands a value on comes after the ones that have given it: what is stored has
been read, what is sent has been looked up or read for this very attempt, and an attempt comes after
a refusal, after a wait or first.

`Allowed` is that order, stated over what one coroutine has done; `Got`, `SlotGot`, `Fetched` and
`Presented` are the pieces of such a past.  It is shown of each program by the shape of the program
(`follows_get`, `follows_fetch`, `follows_headers`, `follows_loop`), and of everything that is
started (`follows_started`).
-/
namespace L1Agent
namespace Credentials
open Interleaving Secrets
open Http (Exn HttpClient)

variable (site : Site)

/-! ## Pieces of a thread's past -/

/-- A value that was found in the cache or read. -/
inductive Got (flag : Flag) (reference : List Char) (value : String) : List Calls.Done → Prop
  | cached (ref : SecretRef) (hparse : SecretRef.parse reference = .ok ref) :
    Got flag reference value [⟨.lookUp flag ref.text, some value⟩]
  | read (ref : SecretRef) (hparse : SecretRef.parse reference = .ok ref) :
    Got flag reference value [⟨.lookUp flag ref.text, none⟩, ⟨.read ref, .ok value⟩,
      ⟨.store ref.text value, ()⟩]

/-- The value of a slot; without a reference it is empty. -/
inductive SlotGot (secrets : ConnectionSecrets) (flag : Flag) (slot value : String) :
    List Calls.Done → Prop
  | unset (hslot : secrets.references.lookup slot = none) (hvalue : value = "") :
    SlotGot secrets flag slot value []
  | set (reference : List Char) (tail : List Calls.Done)
    (hslot : secrets.references.lookup slot = some reference)
    (hgot : Got flag reference value tail) :
    SlotGot secrets flag slot value tail

/-- The token endpoint has granted a token. -/
inductive Fetched (c : Nat) (o : OAuth) (fresh : Bool) (token : String)
    (lifetime : Option (WithTop Rat)) : List Calls.Done → Prop
  | mk (clientSecret : String) (password : Option String) (asked asked' : List Calls.Done)
    (posted : Posted)
    (hsecret :
      SlotGot (site.clients c).secrets (.given fresh) o.clientSecretSlot clientSecret asked)
    (hpassword : ∀ p, password = some p →
      SlotGot (site.clients c).secrets (.given fresh) o.passwordSlot p asked')
    (hnone : password = none → asked' = [])
    (hgranted : o.granted site posted = .ok (token, lifetime)) :
    Fetched c o fresh token lifetime
      (asked ++ asked' ++ [⟨.post c (o.form clientSecret password), .ok posted⟩])

/-- The headers of a credential, and what was done for them. -/
inductive Presented (c : Nat) : List (String × String) → List Calls.Done → Prop
  | none (hauth : (site.clients c).auth = .none) : Presented c [] []
  | basic (username slot password : String) (tail : List Calls.Done)
    (hauth : (site.clients c).auth = .basic username slot)
    (hgot : SlotGot (site.clients c).secrets (.own c) slot password tail) :
    Presented c (authorization (site.encode username password)) (tail ++ [⟨.lower c, ()⟩])
  | bearer (slot scheme token : String) (tail : List Calls.Done)
    (hauth : (site.clients c).auth = .bearer slot scheme)
    (hgot : SlotGot (site.clients c).secrets (.own c) slot token tail) :
    Presented c (authorization (scheme ++ " " ++ token)) (tail ++ [⟨.lower c, ()⟩])
  | kept (o : OAuth) (token : String) (hauth : (site.clients c).auth = .oauth o) :
    Presented c (authorization ("Bearer " ++ token)) [⟨.lock c, .token token⟩]
  | fetched (o : OAuth) (fresh : Bool) (token : String) (lifetime : WithTop Rat)
    (tail : List Calls.Done) (hauth : (site.clients c).auth = .oauth o)
    (hfetched : Fetched site c o fresh token (some lifetime) tail) :
    Presented c (authorization ("Bearer " ++ token))
      (⟨.lock c, .fetch fresh⟩ :: tail ++ [⟨.keep c token (some lifetime), ()⟩])

/-- What `rejected` does. -/
def refusal (c : Nat) : List Calls.Done :=
  match (site.clients c).auth with
  | .none => []
  | .oauth _ => [⟨.forget c, ()⟩]
  | _ => [⟨.reject c, ()⟩]

/-- A request is about to be sent: for the first time, again after a refusal, or again after a
wait. -/
inductive AtHead (c : Nat) : List Calls.Done → Prop
  | first : AtHead c []
  | refused (before : List Calls.Done) (sent : Http.Sent) (raw : Http.Raw) (h : raw.status = 401) :
    AtHead c (before ++ ⟨.send c sent, .ok raw⟩ :: refusal site c)
  | again (before : List Calls.Done) (sent : Http.Sent) (raw : Http.Raw) (attempt : Nat)
    (retryAfter : String) (h : raw.status ∈ Http.retryStatuses) :
    AtHead c (before ++ [⟨.send c sent, .ok raw⟩, ⟨.sleep attempt retryAfter, .ok ()⟩])

/-- The operation is none of a lock, and sends nothing. -/
def Op.quiet : Op → Prop
  | keep _ _ (some _) | unlock _ | lock _ | send .. => False
  | _ => True

/-- The thread has taken the lock, and not yet given it back. -/
def Holding (c : Nat) (past : List Calls.Done) : Prop :=
  ∃ before fresh tail, past = before ++ ⟨.lock c, .fetch fresh⟩ :: tail ∧ ∀ d ∈ tail, Op.quiet d.op

theorem Holding.append {c : Nat} {past : List Calls.Done} (h : Holding c past)
    (after : List Calls.Done) (hafter : ∀ d ∈ after, Op.quiet d.op) :
    Holding c (past ++ after) := by
  obtain ⟨before, fresh, tail, rfl, htail⟩ := h
  refine ⟨before, fresh, tail ++ after, by simp, fun d hd => ?_⟩
  rcases List.mem_append.mp hd with hd | hd
  · exact htail d hd
  · exact hafter d hd

/-- What a thread does next, after its past. -/
def Allowed (past : List Calls.Done) : Op → Prop
  | .store key value => ∃ before flag text ref, SecretRef.parse text = .ok ref ∧ key = ref.text ∧
    past = before ++ [⟨.lookUp flag ref.text, none⟩, ⟨.read ref, .ok value⟩]
  | .send c sent => ∃ head auth tail r, AtHead site c head ∧ Presented site c auth tail ∧
    past = head ++ tail ∧ sent = (site.clients c).http.sent r auth
  | .use c fresh values => (∀ x ∈ past, Op.quiet x.op) ∧ ∀ p ∈ values, ∃ before tail after,
    past = before ++ tail ++ after ∧ SlotGot (site.clients c).secrets (.given fresh) p.1 p.2 tail
  | .post c _ => Holding c past
  | .unlock c => Holding c past
  | .keep c token lifetime => Holding c past ∧ ∃ before o fresh tail,
    (site.clients c).auth = .oauth o ∧ past = before ++ ⟨.lock c, .fetch fresh⟩ :: tail ∧
    Fetched site c o fresh token lifetime tail
  | _ => True

/-! ## The programs -/

variable {site}

theorem issues_get (flag : Flag) (reference : List Char) :
    (get site flag reference).Issues Op.quiet := by
  unfold get
  cases SecretRef.parse reference with
  | error message => exact True.intro
  | ok ref =>
    refine ⟨True.intro, fun (cached : Option String) => ?_⟩
    cases cached with
    | some value => exact True.intro
    | none =>
      refine Program.Issues.ite (fun _ => ⟨True.intro, fun (answer : Except Exn String) => ?_⟩)
        fun _ => True.intro
      cases answer with
      | error e => exact True.intro
      | ok value => exact ⟨True.intro, fun _ => True.intro⟩

theorem follows_get (flag : Flag) (reference : List Char) (past : List Calls.Done) :
    (get site flag reference).Follows (Allowed site) past fun past' x =>
      ∀ value, x = .ok value → ∃ tail, past' = past ++ tail ∧ Got flag reference value tail := by
  unfold get
  cases hparse : SecretRef.parse reference with
  | error message => exact fun value hx => nomatch hx
  | ok ref =>
    refine .bind (.op True.intro fun (cached : Option String) => ?_)
    cases cached with
    | some value =>
      rintro value' hvalue
      cases hvalue
      exact ⟨_, rfl, .cached ref hparse⟩
    | none =>
      refine .ite (fun hconfigured => ?_) fun hconfigured => fun value hx => ?_
      · refine .bind (.op True.intro fun (answer : Except Exn String) => ?_)
        cases answer with
        | error e => exact fun value hx => nomatch hx
        | ok value =>
          have hstore : Allowed site (past ++ [⟨.lookUp flag ref.text, none⟩] ++
              [⟨.read ref, .ok value⟩]) (.store ref.text value) :=
            ⟨past, flag, reference, ref, hparse, rfl, by simp⟩
          show ((call (.store ref.text value)).bind fun _ => .ret value).Follows _ _ _
          refine .bind (.op hstore fun _ => ?_)
          rintro value' hvalue
          cases hvalue
          exact ⟨_, by simp, .read ref hparse⟩
      · cases hx

section Slots
variable (secrets : ConnectionSecrets) (flag : Flag)

theorem issues_slot (slot : String) : (secrets.get site flag slot).Issues Op.quiet := by
  unfold ConnectionSecrets.get
  cases secrets.references.lookup slot with
  | none => exact True.intro
  | some reference => exact issues_get flag reference

theorem follows_slot (slot : String) (past : List Calls.Done) :
    (secrets.get site flag slot).Follows (Allowed site) past fun past' x =>
      ∀ value, x = .ok value → ∃ tail, past' = past ++ tail ∧
        SlotGot secrets flag slot value tail := by
  unfold ConnectionSecrets.get
  cases hslot : secrets.references.lookup slot with
  | none =>
    rintro value hvalue
    cases hvalue
    exact ⟨[], (List.append_nil _).symm, .unset hslot rfl⟩
  | some reference =>
    refine (follows_get flag reference past).mono fun past' x hgot value hx => ?_
    obtain ⟨tail, hpast, htail⟩ := hgot value hx
    exact ⟨tail, hpast, .set reference tail hslot htail⟩

theorem issues_each (slots : List String) :
    (secrets.getEach site flag slots).Issues Op.quiet := by
  induction slots with
  | nil => exact True.intro
  | cons slot slots ih =>
    exact (issues_slot secrets flag slot).bind fun _ => ih.bind fun _ => True.intro

/-- Each of the values is one that the slot has given on the way. -/
theorem follows_each (slots : List String) (past : List Calls.Done) :
    (secrets.getEach site flag slots).Follows (Allowed site) past fun past' x =>
      past <+: past' ∧ ∀ values, x = .ok values → ∀ p ∈ values, ∃ before tail after,
        past' = before ++ tail ++ after ∧ SlotGot secrets flag p.1 p.2 tail := by
  induction slots generalizing past with
  | nil =>
    refine ⟨List.prefix_rfl, fun values hvalues p hp => ?_⟩
    cases hvalues
    exact absurd hp List.not_mem_nil
  | cons slot slots ih =>
    refine .bind (((follows_slot secrets flag slot past).grow List.prefix_rfl).mono ?_)
    rintro past' x ⟨hgrown, hgot⟩
    cases x with
    | error e => exact ⟨hgrown, fun values hvalues => nomatch hvalues⟩
    | ok value =>
      obtain ⟨tail, rfl, htail⟩ := hgot value rfl
      refine .bind ((ih (past ++ tail)).mono ?_)
      rintro past'' x ⟨hgrown', hvalues⟩
      have hgrows : past <+: past'' := hgrown.trans hgrown'
      cases x with
      | error e => exact ⟨hgrows, fun values hvalues => nomatch hvalues⟩
      | ok values =>
        refine ⟨hgrows, fun values' hvalues' p hp => ?_⟩
        cases hvalues'
        rcases List.mem_cons.mp hp with rfl | hp
        · obtain ⟨after, rfl⟩ := hgrown'
          exact ⟨past, tail, after, rfl, htail⟩
        · exact hvalues values rfl p hp

end Slots

/-- A part that leaves the lock alone keeps it. -/
theorem holding_kept {α : Type} {c : Nat} {past : List Calls.Done} {p : Prog α}
    {Q : List Calls.Done → Except Exn α → Prop} (hold : Holding c past)
    (hquiet : p.Issues Op.quiet) (h : p.Follows (Allowed site) past Q) :
    p.Follows (Allowed site) past fun past' x => Q past' x ∧ Holding c past' := by
  refine (h.adds hquiet).mono ?_
  rintro past' x ⟨hQ, after, rfl, hafter⟩
  exact ⟨hQ, hold.append after hafter⟩

/-- The password of the grant, where it has one. -/
theorem follows_password (c : Nat) (o : OAuth) (fresh : Bool) {past : List Calls.Done}
    (hold : Holding c past) :
    (if o.username ≠ "" then
      ((site.clients c).secrets.get site (.given fresh) o.passwordSlot).bind fun password =>
        Program.ret (some password)
    else .ret none : Prog (Option String)).Follows (Allowed site) past fun past' x =>
      (∀ password, x = .ok password → ∃ asked, past' = past ++ asked ∧
        (∀ p, password = some p →
          SlotGot (site.clients c).secrets (.given fresh) o.passwordSlot p asked) ∧
        (password = none → asked = [])) ∧ Holding c past' := by
  refine .ite (fun huser => .bind ?_) fun huser => ⟨fun password hx => ?_, hold⟩
  · refine (holding_kept hold (issues_slot ..) (follows_slot ..)).mono ?_
    rintro past' x ⟨hgot, hold'⟩
    cases x with
    | error e => exact ⟨fun password hx => (nomatch hx), hold'⟩
    | ok p =>
      refine ⟨fun password hx => ?_, hold'⟩
      cases hx
      obtain ⟨asked, rfl, hasked⟩ := hgot p rfl
      refine ⟨asked, rfl, fun p' hp' => ?_, fun hnone => absurd hnone (Option.some_ne_none _)⟩
      cases hp'
      exact hasked
  · cases hx
    exact ⟨[], (List.append_nil _).symm, fun p hp => absurd hp.symm (Option.some_ne_none _),
      fun _ => rfl⟩

/-- A fetch that is given the lock keeps a token and gives the lock back, or fails with it. -/
theorem follows_fetch {c : Nat} {o : OAuth} (hauth : (site.clients c).auth = .oauth o)
    (fresh : Bool) (past : List Calls.Done) :
    (fetch site c o fresh).Follows (Allowed site) (past ++ [⟨.lock c, .fetch fresh⟩])
      fun past' x =>
        (∀ token, x = .ok token → ∃ tail lifetime,
          Fetched site c o fresh token (some lifetime) tail ∧
          past' = past ++ ⟨.lock c, .fetch fresh⟩ :: tail ++
            [⟨.keep c token (some lifetime), ()⟩]) ∧
        (∀ e, x = .error e → Holding c past') := by
  have hold : Holding c (past ++ [⟨.lock c, .fetch fresh⟩]) :=
    ⟨past, fresh, [], rfl, fun d hd => absurd hd List.not_mem_nil⟩
  unfold fetch
  refine .bind ((holding_kept hold (issues_slot ..) (follows_slot ..)).mono ?_)
  rintro past₁ x ⟨hsecret, hold₁⟩
  cases x with
  | error e => exact ⟨fun token hx => (nomatch hx), fun _ _ => hold₁⟩
  | ok clientSecret =>
    obtain ⟨asked, rfl, hasked⟩ := hsecret clientSecret rfl
    refine .bind ((follows_password c o fresh hold₁).mono ?_)
    rintro past₂ x ⟨hpassword, hold₂⟩
    cases x with
    | error e => exact ⟨fun token hx => (nomatch hx), fun _ _ => hold₂⟩
    | ok password =>
      obtain ⟨asked', rfl, hasked', hnone⟩ := hpassword password rfl
      refine .bind (.op hold₂ fun (answer : Except Exn Posted) => ?_)
      have hold₃ := hold₂.append [⟨.post c (o.form clientSecret password), answer⟩] fun d hd => by
        cases List.mem_singleton.mp hd
        exact True.intro
      cases answer with
      | error e => exact ⟨fun token hx => (nomatch hx), fun _ _ => hold₃⟩
      | ok posted =>
        show ((Program.ofExcept (o.granted site posted)).bind fun granted =>
          (call (.keep c granted.1 granted.2)).bind fun _ =>
            if granted.2.isSome then .ret granted.1
            else .raise (.raised "OverflowError")).Follows _ _ _
        cases hgranted : o.granted site posted with
        | error e => exact ⟨fun token hx => (nomatch hx), fun _ _ => hold₃⟩
        | ok granted =>
          obtain ⟨token, lifetime⟩ := granted
          have hfetched : Fetched site c o fresh token lifetime _ :=
            .mk clientSecret password asked asked' posted hasked hasked' hnone hgranted
          have hkeep : Allowed site (past ++ [⟨.lock c, .fetch fresh⟩] ++ asked ++ asked' ++
              [⟨.post c (o.form clientSecret password), .ok posted⟩]) (.keep c token lifetime) :=
            ⟨hold₃, past, o, fresh, _, hauth, by simp, hfetched⟩
          cases lifetime with
          | some lifetime =>
            show ((call (.keep c token (some lifetime))).bind fun _ => .ret token).Follows _ _ _
            refine .bind (.op hkeep fun _ => ⟨fun token' hx => ?_, fun e hx => nomatch hx⟩)
            cases hx
            exact ⟨_, lifetime, hfetched, by simp⟩
          | none =>
            -- the overflow is raised with the lock still taken
            show ((call (.keep c token none)).bind fun _ =>
              .raise (.raised "OverflowError")).Follows _ _ _
            refine .bind (.op hkeep fun _ => ⟨fun token' hx => (nomatch hx), fun e hx => ?_⟩)
            refine hold₃.append [⟨.keep c token none, ()⟩] fun d hd => ?_
            cases List.mem_singleton.mp hd
            exact True.intro

/-- The headers of an attempt, and what was done for them since. -/
theorem follows_headers (c : Nat) (past : List Calls.Done) :
    (headers site c).Follows (Allowed site) past fun past' x =>
      ∀ auth, x = .ok auth → ∃ tail, past' = past ++ tail ∧ Presented site c auth tail := by
  unfold headers
  cases hauth : (site.clients c).auth with
  | none =>
    rintro auth hx
    cases hx
    exact ⟨[], (List.append_nil _).symm, .none hauth⟩
  | basic username slot =>
    refine .bind ((follows_slot ..).mono ?_)
    rintro past' x hgot
    cases x with
    | error e => exact fun auth hx => nomatch hx
    | ok password =>
      obtain ⟨tail, rfl, htail⟩ := hgot password rfl
      refine .bind (.op True.intro fun _ auth hx => ?_)
      cases hx
      exact ⟨_, List.append_assoc .., .basic username slot password tail hauth htail⟩
  | bearer slot scheme =>
    refine .bind ((follows_slot ..).mono ?_)
    rintro past' x hgot
    cases x with
    | error e => exact fun auth hx => nomatch hx
    | ok token =>
      obtain ⟨tail, rfl, htail⟩ := hgot token rfl
      refine .bind (.op True.intro fun _ auth hx => ?_)
      cases hx
      exact ⟨_, List.append_assoc .., .bearer slot scheme token tail hauth htail⟩
  | oauth o =>
    refine .bind (.op True.intro fun (held : Held) => ?_)
    cases held with
    | token token =>
      rintro auth hx
      cases hx
      exact ⟨_, rfl, .kept o token hauth⟩
    | fetch fresh =>
      refine .bind (.tryCatch ((follows_fetch hauth fresh past).mono ?_))
      rintro past' x ⟨hok, herror⟩
      cases x with
      | error e =>
        -- a fetch that fails gives the lock back, and fails
        exact .bind (.op (herror e rfl) fun _ auth hx => nomatch hx)
      | ok token =>
        rintro auth hx
        cases hx
        obtain ⟨tail, lifetime, hfetched, rfl⟩ := hok token rfl
        exact ⟨_, by simp, .fetched o fresh token lifetime tail hauth hfetched⟩

theorem follows_rejected (c : Nat) (past : List Calls.Done) :
    (rejected site c).Follows (Allowed site) past fun past' x =>
      x = .ok () ∧ past' = past ++ refusal site c := by
  unfold rejected refusal
  cases (site.clients c).auth with
  | none => exact ⟨rfl, (List.append_nil _).symm⟩
  | basic username slot => exact ⟨True.intro, fun _ => ⟨rfl, rfl⟩⟩
  | bearer slot scheme => exact ⟨True.intro, fun _ => ⟨rfl, rfl⟩⟩
  | oauth o => exact ⟨True.intro, fun _ => ⟨rfl, rfl⟩⟩

/-- To read the body calls nothing. -/
theorem follows_succeeded (c : Nat) (raw : Http.Raw) (past : List Calls.Done) :
    ((HttpClient.succeeded raw).translate (carriedOut site c)).Follows (Allowed site) past
      fun _ _ => True := by
  unfold HttpClient.succeeded
  by_cases hstatus : raw.status ≠ 204
  · rw [if_pos hstatus]
    cases raw.json <;> exact True.intro
  · rw [if_neg hstatus]
    exact True.intro

theorem follows_loop (c : Nat) (r : Http.Request) (attempt : Nat) (credentialRetried : Bool)
    (past : List Calls.Done) (hhead : AtHead site c past) :
    (((site.clients c).http.loop r attempt credentialRetried).translate
      (carriedOut site c)).Follows (Allowed site) past fun _ _ => True := by
  -- on the sends that are left: a refusal and a wait each leave fewer
  induction hn : (site.clients c).http.left r attempt credentialRetried
    using Nat.strongRecOn generalizing attempt credentialRetried past with
  | ind n ih =>
    subst hn
    rw [HttpClient.loop]
    refine .bind (.attempt ((follows_headers c past).mono fun past' x hpresented => ?_))
    cases x with
    | error e => exact True.intro
    | ok auth =>
      obtain ⟨tail, rfl, htail⟩ := hpresented auth rfl
      have hsend : Allowed site (past ++ tail) (.send c ((site.clients c).http.sent r auth)) :=
        ⟨past, auth, tail, r, hhead, htail, rfl, rfl⟩
      refine .bind (.op hsend fun (answer : Except Exn Http.Raw) => ?_)
      cases answer with
      | error e => exact True.intro
      | ok raw =>
        dsimp only [Program.ofExcept, Program.bind_ret]
        by_cases hbelow : raw.status < 400
        · rw [if_pos hbelow]
          exact follows_succeeded c raw _
        rw [if_neg hbelow]
        by_cases hcredential : raw.status = 401 ∧ credentialRetried = false
        · rw [dif_pos hcredential]
          obtain ⟨hrefused, rfl⟩ := hcredential
          refine .bind (.attempt ((follows_rejected c _).mono ?_))
          rintro past' x ⟨rfl, rfl⟩
          refine ih _ ?_ _ _ _ ?_ rfl
          · unfold HttpClient.left
            simp only [reduceIte, Bool.false_eq_true]
            omega
          · rw [List.append_assoc, List.singleton_append]
            exact .refused _ _ raw hrefused
        rw [dif_neg hcredential]
        by_cases hretry : raw.status ∈ Http.retryStatuses ∧
            attempt + 1 < (site.clients c).http.attempts r
        · rw [dif_pos hretry]
          refine .bind (.op True.intro fun (slept : Except Exn Unit) => ?_)
          cases slept with
          | error e => exact True.intro
          | ok _ =>
            refine ih _ ?_ _ _ _ ?_ rfl
            · have := hretry.2
              unfold HttpClient.left
              omega
            · rw [List.append_assoc]
              exact .again _ _ raw _ _ hretry.1
        · rw [dif_neg hretry]
          exact True.intro

/-- **Everything that is started keeps to the order.** -/
theorem follows_started {p : Prog Unit} (h : Starts site p) :
    p.Follows (Allowed site) [] fun _ _ => True := by
  cases h with
  | request c r =>
    refine .bind ((follows_loop c r 0 false [] .first).mono fun past x _ => ?_)
    cases x <;> exact True.intro
  | secret c slot fresh =>
    refine .bind (((follows_slot ..).adds (issues_slot ..)).mono ?_)
    rintro past x ⟨hgot, after, rfl, hquiet⟩
    cases x with
    | error e => exact True.intro
    | ok value =>
      obtain ⟨tail, rfl, htail⟩ := hgot value rfl
      refine .op ⟨hquiet, fun p hp => ?_⟩ fun _ => True.intro
      cases List.mem_singleton.mp hp
      exact ⟨[], _, [], by simp, htail⟩
  | all c fresh =>
    refine .bind (((follows_each ..).adds (issues_each ..)).mono ?_)
    rintro past x ⟨hgot, after, rfl, hquiet⟩
    cases x with
    | error e => exact True.intro
    | ok values => exact .op ⟨hquiet, hgot.2 values rfl⟩ fun _ => True.intro
  | invalidate reference =>
    unfold invalidate
    cases reference with
    | none => exact ⟨True.intro, fun _ => True.intro⟩
    | some reference =>
      dsimp only
      cases SecretRef.parse reference with
      | error message => exact True.intro
      | ok ref => exact ⟨True.intro, fun _ => True.intro⟩

end Credentials
end L1Agent
