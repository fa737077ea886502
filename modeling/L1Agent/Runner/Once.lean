import L1Agent.Library.Replays
import L1Agent.Runner.Bounds
import Mathlib.Algebra.Order.Field.Rat

/-! # A signed call is made once

The runner remembers the calls that it has accepted, and forgets those of them that have expired
when it has many.  A call comes again only until it expires, so no envelope is carried out twice
(`calls_made_once`).  What is carried out was signed, was in time when it was accepted, and is for
the tenant that the runner was given; a runner that was given none makes calls for any
(`calls_for_other_tenants`).
-/
namespace L1Agent
namespace Runner
open Interleaving Replays

variable {site : Site}

/-! ## Accepting a call -/

/-- What is known of a call that is accepted at an instant. -/
structure Acceptable (site : Site) (now : Rat) (seen : Seen) (call : Json) (expires : Rat) : Prop where
  addressed : ∃ tenantId,
    site.parseUuid (site.texts.builtins.str (call.getD "tenant_id" .null)) = some tenantId ∧
      ∀ own, site.tenantId = some own → tenantId = own
  expiry : site.toFloat (call.getD "expires_at" .null) = some expires
  inTime : now < expires
  new : ∀ k ∈ seen, k.1 ≠ textOf call "call_id"

/-- **A call that is accepted** is remembered; of another nothing is. -/
theorem Site.envelopeProblem_cases (site : Site) (now : Rat) (seen : Seen) (call : Json)
    (claimedId : String) :
    (site.envelopeProblem now seen call claimedId).1 ≠ .ok "" ∧
        (site.envelopeProblem now seen call claimedId).2 = seen ∨
      ∃ expires, Acceptable site now seen call expires ∧
        site.envelopeProblem now seen call claimedId =
          (.ok "", remember now seen (textOf call "call_id") expires) := by
  unfold envelopeProblem
  split
  · exact .inl ⟨by simp, rfl⟩
  split
  · exact .inl ⟨by simp, rfl⟩
  split
  · exact .inl ⟨by simp, rfl⟩
  split
  · exact .inl ⟨by simp, rfl⟩
  rename_i tenantId htenant
  split
  · exact .inl ⟨by simp, rfl⟩
  rename_i hown
  split
  · exact .inl ⟨by simp, rfl⟩
  rename_i expires hexpires
  split
  · exact .inl ⟨by simp, rfl⟩
  rename_i htime
  split
  · exact .inl ⟨by simp, rfl⟩
  rename_i hseen
  refine .inr ⟨expires, ⟨⟨tenantId, htenant, fun own h => ?_⟩, hexpires, not_le.mp htime, ?_⟩, rfl⟩
  · simpa [h] using hown
  · intro k hk hsame
    exact hseen (List.any_eq_true.mpr ⟨k, hk, by simpa using hsame⟩)

/-- A call that has been accepted, by a thread. -/
structure Accepted where
  thread : Nat
  callId : String
  expires : Rat

/-- The call that the event accepts. -/
def Site.Event.accepted : site.Event → Option Accepted
  | ⟨thread, ⟨_, .accept call _⟩, _, _, (.ok "" : Except Exn String), _⟩ =>
    (site.toFloat (call.getD "expires_at" .null)).map fun expires =>
      ⟨thread, textOf call "call_id", expires⟩
  | _ => none

theorem Site.Event.accepted_of_expiry {t : Nat} {item call : Json} {claimedId : String}
    {ch : Choice} {before after : State} {expires : Rat}
    (h : site.toFloat (call.getD "expires_at" .null) = some expires) :
    Site.Event.accepted (⟨t, ⟨item, .accept call claimedId⟩, ch, before,
      (.ok "" : Except Exn String), after⟩ : site.Event) =
        some ⟨t, textOf call "call_id", expires⟩ := by
  show (site.toFloat (call.getD "expires_at" .null)).map _ = _
  rw [h]
  rfl

/-- The reading by which the event accepts a call. -/
def Site.Event.reading (ev : site.Event) : Option Rat := ev.accepted.map fun _ => ev.choice.reading

def accepts (tr : List site.Event) : List Accepted := tr.filterMap Site.Event.accepted

def readings (tr : List site.Event) : List Rat := tr.filterMap Site.Event.reading

/-- The records and the calls of the runner. -/
def guard : Guard (String × Rat) String Rat Accepted where
  key := Prod.fst
  lasts k t := t < k.2
  keyOf := Accepted.callId
  fresh a t := t < a.expires

/-- The state and the history are in keeping. -/
structure Guarded (s : State) (tr : List site.Event) : Prop where
  sound : guard.Sound (readings tr) s.seen (accepts tr)
  past : ∀ t ∈ readings tr, t ≤ s.clock

/-- The clock does not step back. -/
def Nondecreasing (s : State) (o : Op) (ch : Choice) : Prop :=
  match o.call with
  | .accept .. => s.clock ≤ ch.reading
  | _ => True

theorem accepts_snoc (tr : List site.Event) (ev : site.Event) :
    accepts (tr ++ [ev]) = accepts tr ++ ev.accepted.toList := by
  unfold accepts
  rw [List.filterMap_append]
  cases h : ev.accepted <;> simp [h]

theorem readings_snoc (tr : List site.Event) (ev : site.Event) :
    readings (tr ++ [ev]) = readings tr ++ ev.reading.toList := by
  unfold readings
  rw [List.filterMap_append]
  cases h : ev.reading <;> simp [h]

/-- An event that accepts no call, and leaves what the runner remembers. -/
theorem Guarded.other {pre : List site.Event} {ev : site.Event} (h : Guarded ev.before pre)
    (hnone : ev.accepted = none) (hsame : ev.after.seen = ev.before.seen)
    (hclock : ev.before.clock ≤ ev.after.clock) : Guarded ev.after (pre ++ [ev]) := by
  have hreading : ev.reading = none := by simp [Site.Event.reading, hnone]
  constructor
  · rw [accepts_snoc, readings_snoc, hnone, hreading, hsame]
    simpa using h.sound
  · intro t ht
    rw [readings_snoc, hreading] at ht
    exact (h.past t (by simpa using ht)).trans hclock

theorem mem_remember {now : Rat} {seen : Seen} {callId : String} {expires : Rat} :
    (callId, expires) ∈ remember now seen callId expires := by
  unfold remember
  simp

/-- What has not expired stays. -/
theorem stays_remember {now : Rat} {seen : Seen} {callId : String} {expires : Rat}
    {k : String × Rat} (hk : k ∈ seen) (hlasts : now < k.2) :
    k ∈ remember now seen callId expires := by
  unfold remember
  refine List.mem_append_left _ ?_
  split
  · exact List.mem_filter.mpr ⟨hk, by simpa using hlasts⟩
  · exact hk

/-- **Accepting a call** keeps the state and the history in keeping. -/
theorem Guarded.accept {pre : List site.Event} {t : Nat} {item call : Json} {claimedId : String}
    {ch : Choice} {before after : State} {x : Except Exn String} (h : Guarded before pre)
    (hclock : before.clock ≤ ch.reading)
    (hrun : site.run (.accept call claimedId) ch before = (x, after)) :
    Guarded after (pre ++ [(⟨t, ⟨item, .accept call claimedId⟩, ch, before, x, after⟩ :
      site.Event)]) := by
  have hanswer : (site.envelopeProblem ch.reading before.seen call claimedId).1 = x :=
    congrArg Prod.fst hrun
  have hafter : { before with
      clock := ch.reading
      seen := (site.envelopeProblem ch.reading before.seen call claimedId).2 } = after :=
    congrArg Prod.snd hrun
  rcases site.envelopeProblem_cases ch.reading before.seen call claimedId with
    ⟨hno, hseen⟩ | ⟨expires, hcall, hyes⟩
  · refine @Guarded.other site pre ⟨t, ⟨item, .accept call claimedId⟩, ch, before, x, after⟩ h
      ?_ ?_ ?_
    · rw [hanswer] at hno
      cases x with
      | error e => rfl
      | ok problem =>
        unfold Site.Event.accepted
        split
        · rename_i heq
          cases heq
          exact absurd rfl hno
        · rfl
    · rw [← hafter]
      exact hseen
    · rw [← hafter]
      exact hclock
  · rw [hyes] at hanswer hafter
    obtain rfl : x = .ok "" := hanswer.symm
    subst hafter
    have haccepted : Site.Event.accepted (⟨t, ⟨item, .accept call claimedId⟩, ch, before,
        (.ok "" : Except Exn String), { before with
          clock := ch.reading
          seen := remember ch.reading before.seen (textOf call "call_id") expires }⟩ :
        site.Event) = some ⟨t, textOf call "call_id", expires⟩ :=
      Site.Event.accepted_of_expiry hcall.expiry
    constructor
    · rw [accepts_snoc, readings_snoc, Site.Event.reading, haccepted]
      -- the old records at this reading, then the new one
      have hforget : guard.Sound (readings pre ++ [ch.reading])
          (before.seen.filter fun k => decide (ch.reading < k.2)) (accepts pre) :=
        h.sound.forget fun k hk hlasts => List.mem_filter.mpr ⟨hk, decide_eq_true hlasts⟩
      refine hforget.accept (a := ⟨t, textOf call "call_id", expires⟩) ?_ ?_ ?_ ?_
      · intro k hk
        exact hcall.new k (List.mem_filter.mp hk).1
      · intro now hnow
        rcases List.mem_append.mp hnow with hnow | hnow
        · exact ((h.past now hnow).trans hclock).trans_lt hcall.inTime
        · cases List.mem_singleton.mp hnow
          exact hcall.inTime
      · intro k hk
        obtain ⟨hk, hlasts⟩ := List.mem_filter.mp hk
        exact stays_remember hk (by simpa using hlasts)
      · exact ⟨_, mem_remember, rfl, fun _ hfresh => hfresh⟩
    · intro now hnow
      rw [readings_snoc, Site.Event.reading, haccepted] at hnow
      rcases List.mem_append.mp hnow with hnow | hnow
      · exact (h.past now hnow).trans hclock
      · cases List.mem_singleton.mp hnow
        exact le_refl _

/-- What the calls leave that accept none. -/
theorem Site.run_seen (site : Site) {call : Call}
    (hcall : ∀ envelope claimedId, call ≠ .accept envelope claimedId) (ch : Choice) (s : State) :
    (site.run call ch s).2.seen = s.seen ∧ (site.run call ch s).2.clock = s.clock := by
  cases call with
  | accept envelope claimedId => exact absurd rfl (hcall envelope claimedId)
  | _ => exact ⟨rfl, rfl⟩

/-- **The state and the history stay in keeping** while the clock does not step back. -/
theorem guarded_of_reaches {clock : Rat} {d : Config Calls Exn (State × List site.Event)}
    (hr : (process site).recorded.Reaches (fun _ o ch st => Nondecreasing st.1 o ch)
      (Config.idle ({ clock }, [])) d) : Guarded d.shared.1 d.shared.2 := by
  refine (System.recorded_induction (I := Guarded) hr ⟨Guard.Sound.start, fun _ h => nomatch h⟩
    fun pre ev post hsplit h => ?_).1
  obtain ⟨-, hclock, hrun⟩ := events_of_reaches hr pre ev post hsplit
  obtain ⟨t, ⟨item, call⟩, ch, before, x, after⟩ := ev
  by_cases haccept : ∃ envelope claimedId, call = .accept envelope claimedId
  · obtain ⟨envelope, claimedId, rfl⟩ := haccept
    exact h.accept hclock hrun
  · have hcall : ∀ envelope claimedId, call ≠ .accept envelope claimedId :=
      fun envelope claimedId heq => haccept ⟨envelope, claimedId, heq⟩
    obtain ⟨hseen, hsame⟩ := site.run_seen hcall ch before
    have hafter : (site.run call ch before).2 = after := congrArg Prod.snd hrun
    rw [hafter] at hseen hsame
    refine h.other ?_ hseen (le_of_eq hsame.symm)
    cases call with
    | accept envelope claimedId => exact absurd rfl (hcall envelope claimedId)
    | _ => rfl

/-! ## The calls that are carried out -/

/-- **What holds of an envelope that is carried out**: the control plane has signed it, and when
its thread accepted it, it was for the runner's tenant and had not expired. -/
structure Due (site : Site) (pre : List site.Event) (ev : site.Event) (call : Json) : Prop where
  holds : Holds site ev.op.item call
  accepted : ∃ e ∈ pre, e.thread = ev.thread ∧ ∃ claimedId seen expires,
    e.op = ⟨ev.op.item, .accept call claimedId⟩ ∧
      Acceptable site e.choice.reading seen call expires

/-- The envelope that the event carries out. -/
def Site.Event.envelope (ev : site.Event) : Option Json :=
  match ev.op.call with
  | .carryOut .. => ev.op.item.get? "envelope"
  | _ => none

/-- The envelopes that have been carried out. -/
def envelopes (tr : List site.Event) : List Json := tr.filterMap Site.Event.envelope

/-- A thread carries out a call that it has accepted, and no other before. -/
theorem accepted_of_carried {cond : (process site).recorded.Cond} {s : State}
    {d : Config Calls Exn (State × List site.Event)}
    (hr : (process site).recorded.Reaches cond (Config.idle (s, [])) d) {pre post : List site.Event}
    {ev : site.Event} (hsplit : d.shared.2 = pre ++ ev :: post) {connector : Built} {order : Order}
    (hcarries : Carries ev connector order) :
    Uncarried (System.own ev.thread pre) ∧ ∃ call, Due site pre ev call ∧ ∃ expires,
      (⟨ev.thread, textOf call "call_id", expires⟩ : Accepted) ∈ accepts d.shared.2 ∧
        site.toFloat (call.getD "expires_at" .null) = some expires := by
  obtain ⟨hallowed, -, -⟩ := events_of_reaches hr pre ev post hsplit
  obtain ⟨t, ⟨item, o⟩, ch, before, x, after⟩ := ev
  obtain rfl : o = .carryOut connector order := hcarries
  obtain ⟨huncarried, call, claimedId, hholds, hmem, -⟩ := hallowed
  obtain ⟨ch', before', after', he⟩ := System.mem_own hmem
  obtain ⟨pre', post', hsplit'⟩ :=
    List.append_of_mem (hsplit ▸ List.mem_append_left _ he : _ ∈ d.shared.2)
  obtain ⟨-, -, hrun⟩ := events_of_reaches hr _ _ _ hsplit'
  have hanswer : (site.envelopeProblem ch'.reading before'.seen call claimedId).1 = .ok "" :=
    congrArg Prod.fst hrun
  rcases site.envelopeProblem_cases ch'.reading before'.seen call claimedId with
    ⟨hno, -⟩ | ⟨expires, hcall, -⟩
  · exact absurd hanswer hno
  refine ⟨huncarried, call, ⟨hholds, _, he, rfl, claimedId, before'.seen, expires, rfl, hcall⟩,
    expires, List.mem_filterMap.mpr ⟨_, hsplit' ▸ List.mem_append_right _ (List.mem_cons_self ..),
      Site.Event.accepted_of_expiry hcall.expiry⟩, hcall.expiry⟩

theorem Site.Event.envelope_eq_some {ev : site.Event} {envelope : Json}
    (h : ev.envelope = some envelope) :
    (∃ connector order, Carries ev connector order) ∧
      ev.op.item.get? "envelope" = some envelope := by
  unfold Site.Event.envelope at h
  split at h
  · rename_i connector order hcall
    exact ⟨⟨connector, order, hcall⟩, h⟩
  · cases h

/-- **A signed call is made once.**  Every envelope that is carried out was signed by the control
plane, was for the tenant of the runner, where it was given one, and had not expired when it was
accepted; and none is carried out again. -/
theorem calls_made_once (site : Site) (clock : Rat)
    (d : Config Calls Exn (State × List site.Event))
    (hr : (process site).recorded.Reaches (fun _ o ch st => Nondecreasing st.1 o ch)
      (Config.idle ({ clock }, [])) d) :
    System.Each (fun pre (ev : site.Event) => ∀ connector order, Carries ev connector order →
        ∃ call, Due site pre ev call) d.shared.2 ∧
      (envelopes d.shared.2).Nodup := by
  constructor
  · intro pre ev post hsplit connector order hcarries
    obtain ⟨-, call, hdue, -⟩ := accepted_of_carried hr hsplit hcarries
    exact ⟨call, hdue⟩
  · have hguarded := guarded_of_reaches hr
    refine (System.Each.pairwise (R := fun e ev : site.Event =>
      ∀ envelope, e.envelope = some envelope → ev.envelope ≠ some envelope) ?_).filterMap _ ?_
    · intro pre ev post hsplit e he envelope henvelope henvelope'
      obtain ⟨⟨connector, order, hcarries⟩, hitem⟩ := Site.Event.envelope_eq_some henvelope
      obtain ⟨⟨connector', order', hcarries'⟩, hitem'⟩ := Site.Event.envelope_eq_some henvelope'
      obtain ⟨pre₁, post₁, hsplit₁⟩ :=
        List.append_of_mem (hsplit ▸ List.mem_append_left _ he : e ∈ d.shared.2)
      obtain ⟨-, call, hdue, expires, hmem, hexpires⟩ := accepted_of_carried hr hsplit₁ hcarries
      obtain ⟨huncarried, call', hdue', expires', hmem', hexpires'⟩ :=
        accepted_of_carried hr hsplit hcarries'
      have hcall : call = call' := by
        obtain ⟨text, -, htext, -, -, hloads⟩ := hdue.holds
        obtain ⟨text', -, htext', -, -, hloads'⟩ := hdue'.holds
        rw [htext] at hitem
        rw [htext', ← hitem] at hitem'
        cases hitem'
        exact Option.some_inj.mp (hloads.symm.trans hloads')
      subst hcall
      obtain rfl : expires = expires' := Option.some_inj.mp (hexpires.symm.trans hexpires')
      have hone := hguarded.sound.unique hmem hmem' rfl fun _ => Iff.rfl
      have hthread : e.thread = ev.thread := congrArg Accepted.thread hone
      -- A thread that has carried out a call carries out no other.
      have hdone : (⟨e.op, e.answer⟩ : Calls.Done) ∈ System.own ev.thread pre :=
        List.mem_map.mpr ⟨e, List.mem_filter.mpr ⟨he, by simpa using hthread⟩, rfl⟩
      exact huncarried _ hdone connector order hcarries
    · intro e ev hne envelope henvelope envelope' henvelope' hsame
      subst hsame
      exact hne envelope henvelope henvelope'

/-! ### A runner without an identity -/

instance (s : State) (o : Op) (ch : Choice) : Decidable (Nondecreasing s o ch) := by
  unfold Nondecreasing
  split <;> infer_instance

/-- A played schedule is a run. -/
theorem played {site : Site} {items : List Json} {steps : List (Nat × Choice)}
    {d : Config Calls Exn (State × List site.Event)}
    (h : (process site).recorded.playIf
      (fun _ (o : Op) (ch : Choice) st => decide (Nondecreasing st.1 o ch))
      (Config.idle (({ clock := 0 } : State), [])) (sampleMoves site items steps) = some d) :
    (process site).recorded.Reaches (fun _ o ch st => Nondecreasing st.1 o ch)
      (Config.idle ({ clock := 0 }, [])) d :=
  System.playIf_reaches _ (fun _ (o : Op) (ch : Choice) st hok =>
    @of_decide_eq_true (Nondecreasing st.1 o ch) _ hok) (starts_sampleMoves site items steps) h

/-- A call is made from its acceptance on. -/
def madeAt (t : Nat) (n : Rat) : List (Nat × Choice) :=
  (t, { reading := n }) :: List.replicate 6 (t, {})

/-- Two copies of a call, of which one is carried out. -/
theorem calls_made_once_sample :
    ∃ d : Config Calls Exn (State × List (sampleSite (some "a")).Event),
      d.shared.2.length = 8 ∧ envelopes d.shared.2 = [.str "a"] ∧
        (System.Each (fun pre (ev : (sampleSite (some "a")).Event) =>
            ∀ connector order, Carries ev connector order →
              ∃ call, Due (sampleSite (some "a")) pre ev call) d.shared.2 ∧
          (envelopes d.shared.2).Nodup) := by
  have hplay : (((process (sampleSite (some "a"))).recorded.playIf
      (fun _ (o : Op) (ch : Choice) st => decide (Nondecreasing st.1 o ch))
      (Config.idle (({ clock := 0 } : State), []))
      (sampleMoves (sampleSite (some "a")) [sampleItem "a", sampleItem "a"]
        (madeAt 0 1 ++ [(1, { reading := 2 })]))).map fun d =>
          (d.shared.2.length, @envelopes (sampleSite (some "a")) d.shared.2)) =
        some (8, [.str "a"]) := by
    decide +kernel
  obtain ⟨d, hd, hends⟩ := Option.map_eq_some_iff.mp hplay
  obtain ⟨hlength, henvelopes⟩ := Prod.mk.inj hends
  exact ⟨d, hlength, henvelopes, calls_made_once (sampleSite (some "a")) 0 d (played hd)⟩

/-- **A runner that was given no identity** makes calls for any tenant: there is none that all the
calls are for that it makes. -/
theorem calls_for_other_tenants : ¬ ∀ (site : Site) (clock : Rat)
    (d : Config Calls Exn (State × List site.Event)),
    (process site).recorded.Reaches (fun _ o ch st => Nondecreasing st.1 o ch)
      (Config.idle ({ clock }, [])) d →
    ∃ tenantId, ∀ envelope ∈ envelopes d.shared.2, ∀ text call, envelope = .str text →
      site.loads text = some call →
      site.parseUuid (site.texts.builtins.str (call.getD "tenant_id" .null)) = some tenantId := by
  intro hall
  have hplay : (((process (sampleSite none)).recorded.playIf
      (fun _ (o : Op) (ch : Choice) st => decide (Nondecreasing st.1 o ch))
      (Config.idle (({ clock := 0 } : State), []))
      (sampleMoves (sampleSite none) [sampleItem "a", sampleItem "b"]
        (madeAt 0 1 ++ madeAt 1 1))).map fun d => @envelopes (sampleSite none) d.shared.2) =
        some [.str "a", .str "b"] := by
    decide +kernel
  obtain ⟨d, hd, hends⟩ := Option.map_eq_some_iff.mp hplay
  obtain ⟨tenantId, htenant⟩ := hall (sampleSite none) 0 d (played hd)
  rw [hends] at htenant
  have ha : "a" = tenantId :=
    Option.some_inj.mp (htenant (.str "a") (by simp) "a" (sampleCall "a") rfl rfl)
  have hb : "b" = tenantId :=
    Option.some_inj.mp (htenant (.str "b") (by simp) "b" (sampleCall "b") rfl rfl)
  exact absurd (ha.trans hb.symm) (by decide)

end Runner
end L1Agent
