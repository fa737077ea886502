import L1Agent.Runner.Calls

/-! # The ceiling binds whoever hands over the calls

Whatever the items are that a runner is handed, a call of a capability is carried out only within
its ceiling, and a credential is read only for a call that is carried out, from a place that the
ceiling names (`ceiling_binds`).  A connector that is kept from an earlier call has been built
within the ceiling too.

`Bounded` is what is said of one run: a capability that is carried out is permitted by the ceiling
(`Permits`), and every place that a credential is read from is `Within` it.  It comes from what the
thread has passed (`Allowed`), and from the rule for systems whose threads follow such an
order.
-/
namespace L1Agent
namespace Runner
open Interleaving Literals

variable {site : Site}

abbrev Site.Event (site : Site) := (process site).Event

/-- What is known of each event of a run. -/
theorem events_of_reaches {cond : (process site).recorded.Cond} {s : State}
    {d : Config Calls Exn (State × List site.Event)}
    (hr : (process site).recorded.Reaches cond (Config.idle (s, [])) d) :
    System.Each (fun pre (ev : site.Event) => Allowed site (System.own ev.thread pre) ev.op ∧
      cond ev.thread ev.op ev.choice (ev.before, pre) ∧
      site.run ev.op.call ev.choice ev.before = (ev.answer, ev.after)) d.shared.2 := by
  have hallowed : System.Each (fun pre (ev : site.Event) =>
      Allowed site (System.own ev.thread pre) ev.op) d.shared.2 :=
    System.recorded_follows (by rintro _ ⟨item, rfl⟩; exact handle_follows item) hr
  intro pre ev post hsplit
  obtain ⟨hcond, hrun⟩ := System.recorded_each hr pre ev post hsplit
  exact ⟨hallowed pre ev post hsplit, hcond, Option.some_inj.mp hrun⟩

/-- The connectors that are kept are within the ceiling. -/
def HeldLawful (site : Site) (s : State) : Prop :=
  ∀ connectorId held, s.held.lookup connectorId = some held →
    held.connector.connectorId = connectorId ∧ Lawful site held.connector

theorem lookup_filter_ne {β : Type} {key other : String} (hne : key ≠ other)
    (fields : List (String × β)) :
    (fields.filter (·.1 ≠ other)).lookup key = fields.lookup key := by
  induction fields with
  | nil => rfl
  | cons f fields ih =>
    by_cases hf : f.1 = other
    · have hkey : (key == f.1) = false := beq_false_of_ne (hf ▸ hne)
      rw [List.filter_cons_of_neg (by simpa using hf), ih, List.lookup_cons, hkey]
    · rw [List.filter_cons_of_pos (by simpa using hf), List.lookup_cons, List.lookup_cons, ih]

/-- The connectors that a call leaves. -/
theorem Site.run_held (site : Site) (call : Call) (ch : Choice) (s : State) :
    (site.run call ch s).2.held = match call with
      | .hold connectorId held => (connectorId, held) :: s.held.filter (·.1 ≠ connectorId)
      | _ => s.held := by
  cases call <;> rfl

theorem HeldLawful.step {s : State} (h : HeldLawful site s) {past : List Calls.Done} {o : Op}
    (hallowed : Allowed site past o) (ch : Choice) :
    HeldLawful site (site.run o.call ch s).2 := by
  obtain ⟨item, call⟩ := o
  intro connectorId held hlookup
  rw [site.run_held] at hlookup
  cases call with
  | hold connectorId' held' =>
    by_cases hsame : connectorId = connectorId'
    · subst hsame
      rw [List.lookup_cons_self] at hlookup
      cases hlookup
      exact hallowed
    · refine h connectorId held ?_
      dsimp only at hlookup
      rw [List.lookup_cons, beq_false_of_ne hsame, lookup_filter_ne hsame] at hlookup
      exact hlookup
  | _ => exact h connectorId held hlookup

/-- A connector that is found is within the ceiling. -/
theorem held_lawful {cond : (process site).recorded.Cond} {clock : Rat}
    {d : Config Calls Exn (State × List site.Event)}
    (hr : (process site).recorded.Reaches cond (Config.idle ({ clock }, [])) d) :
    System.Each (fun _ (ev : site.Event) => HeldLawful site ev.before) d.shared.2 := by
  refine (System.recorded_induction (I := fun (s : State) _ => HeldLawful site s) hr
    (fun _ _ h => nomatch h) fun pre ev post hsplit h => ?_).2
  obtain ⟨hallowed, -, hrun⟩ := events_of_reaches hr pre ev post hsplit
  have hstep := h.step hallowed ev.choice
  rw [hrun] at hstep
  exact hstep

/-- **A call that the runner carries out.** -/
def Carries (ev : site.Event) (connector : Built) (order : Order) : Prop :=
  ev.op.call = .carryOut connector order

/-- The thread has given its connector the call before. -/
def Given (pre : List site.Event) (ev : site.Event) (connector : Built) : Prop :=
  ∃ order, ∃ e ∈ pre, e.thread = ev.thread ∧ e.op.item = ev.op.item ∧ Carries e connector order

/-- What holds of a call that is carried out: the control plane has signed for it, its connector
reads within the ceiling, and a call of a capability has passed the ceiling's checks. -/
structure InBounds (site : Site) (pre : List site.Event) (ev : site.Event) (connector : Built)
    (order : Order) (call : Json) : Prop where
  holds : Holds site ev.op.item call
  reads : connector.connectorId = textOf call "connector_id" ∧ Lawful site connector
  cleared : ∀ capabilityId parameters dryRun, order = .invoke capabilityId parameters dryRun →
    ∃ capability, Cleared site (System.own ev.thread pre) ev.op.item call capabilityId parameters
      capability

/-- A connector that a thread may use is within the ceiling. -/
theorem Usable.reads {clock : Rat} {d : Config Calls Exn (State × List site.Event)}
    (hr : (process site).recorded.Reaches (fun _ _ _ _ => True) (Config.idle ({ clock }, [])) d)
    {pre post : List site.Event} {ev : site.Event} (hsplit : d.shared.2 = pre ++ ev :: post)
    {item : Json} {connectorId : String} {connector : Built}
    (h : Usable site (System.own ev.thread pre) item connectorId connector) :
    connector.connectorId = connectorId ∧ Lawful site connector := by
  rcases h with h | ⟨held, rfl, hmem⟩
  · exact h
  · -- the event that found it, and what was kept there
    obtain ⟨ch, before, after, hfound⟩ := System.mem_own hmem
    obtain ⟨pre', post', rfl⟩ := List.append_of_mem hfound
    have hsplit' : d.shared.2 = pre' ++ ⟨ev.thread, ⟨item, .held connectorId⟩, ch, before,
        some held, after⟩ :: (post' ++ ev :: post) := by
      rw [hsplit, List.append_assoc, List.cons_append]
    obtain ⟨-, -, hrun⟩ := events_of_reaches hr _ _ _ hsplit'
    obtain ⟨hlookup, -⟩ := Prod.mk.inj hrun
    exact held_lawful hr _ _ _ hsplit' connectorId held hlookup

/-- **A call that is carried out is within the ceiling.** -/
theorem inBounds_of_allowed {clock : Rat} {d : Config Calls Exn (State × List site.Event)}
    (hr : (process site).recorded.Reaches (fun _ _ _ _ => True) (Config.idle ({ clock }, [])) d)
    {pre post : List site.Event} {ev : site.Event} (hsplit : d.shared.2 = pre ++ ev :: post)
    {connector : Built} {order : Order} (hcarries : Carries ev connector order) :
    ∃ call, InBounds site pre ev connector order call := by
  obtain ⟨hallowed, -, -⟩ := events_of_reaches hr pre ev post hsplit
  obtain ⟨t, ⟨item, o⟩, ch, before, x, after⟩ := ev
  obtain rfl : o = .carryOut connector order := hcarries
  obtain ⟨-, call, claimedId, hholds, -, husable, horder⟩ := hallowed
  have hreads := Usable.reads hr hsplit husable
  refine ⟨call, hholds, hreads, ?_⟩
  rintro capabilityId parameters dryRun rfl
  exact horder

/-- What a thread has carried out it has done within the ceiling. -/
theorem given_of_own {clock : Rat} {d : Config Calls Exn (State × List site.Event)}
    (hr : (process site).recorded.Reaches (fun _ _ _ _ => True) (Config.idle ({ clock }, [])) d)
    {pre post : List site.Event} {t : Nat} {o : Op} {ch : Choice} {before after : State}
    {x : o.call.Ans} (hsplit : d.shared.2 = pre ++ ⟨t, o, ch, before, x, after⟩ :: post)
    {connector : Built} {order : Order}
    (hmem : (⟨⟨o.item, .carryOut connector order⟩, ()⟩ : Calls.Done) ∈ System.own t pre) :
    Given pre ⟨t, o, ch, before, x, after⟩ connector ∧ Lawful site connector := by
  obtain ⟨ch', before', after', hcarried⟩ := System.mem_own hmem
  refine ⟨⟨order, _, hcarried, rfl, rfl, rfl⟩, ?_⟩
  obtain ⟨pre', post', rfl⟩ := List.append_of_mem hcarried
  have hsplit' : d.shared.2 = pre' ++ ⟨t, ⟨o.item, .carryOut connector order⟩, ch', before', (),
      after'⟩ :: (post' ++ ⟨t, o, ch, before, x, after⟩ :: post) := by
    rw [hsplit, List.append_assoc, List.cons_append]
  obtain ⟨call, hbounds⟩ := inBounds_of_allowed hr hsplit' rfl
  exact hbounds.reads.2

/-- **Within the ceiling**: a call is carried out within it, and a credential is read, or the target
reached, for a call that has been carried out so. -/
structure Bounded (site : Site) (pre : List site.Event) (ev : site.Event) : Prop where
  carries : ∀ connector order, Carries ev connector order →
    ∃ call, InBounds site pre ev connector order call
  resolves : ∀ reference fresh, ev.op.call = .resolve reference fresh →
    ∃ connector, Given pre ev connector ∧ site.ceiling.Within connector.connectorId reference
  sends : ∀ message, ev.op.call = .send message → ∃ connector, Given pre ev connector

/-- **The ceiling binds**, whatever the items are that the runner is handed. -/
theorem ceiling_binds (site : Site) (clock : Rat) (d : Config Calls Exn (State × List site.Event))
    (hr : (process site).recorded.Reaches (fun _ _ _ _ => True) (Config.idle ({ clock }, [])) d) :
    System.Each (Bounded site) d.shared.2 := by
  intro pre ev post hsplit
  obtain ⟨hallowed, -, -⟩ := events_of_reaches hr pre ev post hsplit
  obtain ⟨t, ⟨item, call⟩, ch, before, x, after⟩ := ev
  constructor
  · intro connector order hcarries
    exact inBounds_of_allowed hr hsplit hcarries
  · intro reference fresh hcall
    cases hcall
    obtain ⟨connector, order, hmem, slot, hslot⟩ := hallowed
    obtain ⟨hgiven, hlawful⟩ := given_of_own hr hsplit hmem
    exact ⟨connector, hgiven, hlawful _ hslot⟩
  · intro message hcall
    cases hcall
    obtain ⟨connector, order, hmem⟩ := hallowed
    exact ⟨connector, (given_of_own hr hsplit hmem).1⟩

/-! ### A call of a write, with a credential -/

def sampleGrant : Json :=
  .obj (("expires_at", .int 100) :: ["decision_id", "tenant_id", "run_id", "step_id",
    "capability_id", "call_digest", "nonce", "signature"].map fun f => (f, .str ""))

/-- A call that writes a message, addressed to one tenant. -/
def sampleCall (tenantId : String) : Json :=
  .obj [("v", .int 1), ("call_id", .str tenantId), ("tenant_id", .str tenantId),
    ("connector_id", .str "mail"), ("capability_id", .str "mail.send"), ("kind", .str "invoke"),
    ("parameters", .obj [("mailbox", .str "ops")]),
    ("context", .obj [("run_id", .str "r"), ("step_id", .str "s"), ("purpose", .str "p")]),
    ("connection", .obj [("config", .obj [("mailboxes", .arr [.str "ops"])]),
      ("secret_refs", .obj [("token", .str "vault/token")])]),
    ("expires_at", .int 100), ("grant", sampleGrant)]

def sampleCapability : Capability where
  id := "mail.send"
  kind := .write
  tier := some .t1
  allowLists := [⟨"mailbox", "mailboxes", "exact"⟩]

/-- A site whose signatures repeat what is signed, and whose texts are one call's. -/
def sampleSite (tenantId : Option String) : Site where
  tenantId := tenantId
  dispatchKey := []
  ceiling :=
    { maxTier := .t1, targets := [("mail", [("mailboxes", ["ops"])])],
      secretRefPrefixes := ["vault/"], killSwitchFile := "stop" }
  writes := true
  registry connectorId :=
    if connectorId = "mail" then some ⟨"mail", .operations, [sampleCapability]⟩ else none
  code _ _ := do
    let _ ← (Program.op (E := Code) (.secret "token" false) : Program Code Exn String)
    let _ ← (Program.op (E := Code) (.send .null) : Program Code Exn (Except Exn Json))
    pure { success := true }
  mocks := []
  texts :=
    { builtins := ⟨fun _ => "", fun _ => none, fun _ => false⟩
      fnmatchcase := fun name pattern => pattern = "*" || name = pattern }
  accepts _ _ signature := signature = [1]
  loads text := some (sampleCall text)
  floatOf n := some n
  parseUuid text := some text
  digest _ := ""
  canonicalLength _ := 0
  schemaProblems _ _ := []

/-- An item that holds the call, for one tenant. -/
def sampleItem (tenantId : String) : Json :=
  .obj [("id", .str tenantId), ("envelope", .str tenantId), ("signature", .str "01")]

/-- Items that are handed over, and the steps of their threads. -/
def sampleMoves (site : Site) (items : List Json) (steps : List (Nat × Choice)) :
    List (process site).recorded.Move :=
  items.map (fun item => .start (handle site item)) ++ steps.map fun x => .op x.1 x.2

theorem starts_sampleMoves (site : Site) (items : List Json) (steps : List (Nat × Choice)) :
    (process site).recorded.Starts (sampleMoves site items steps) := by
  refine System.Starts.append (fun p hp => ?_) .each
  obtain ⟨item, -, hitem⟩ := List.mem_map.mp hp
  cases hitem
  exact ⟨item, rfl⟩

/-- The credential references that have been resolved. -/
def resolved (tr : List site.Event) : List String :=
  tr.filterMap fun ev => match ev.op.call with
    | .resolve reference _ => some reference
    | _ => none

theorem ceiling_binds_sample :
    ∃ d : Config Calls Exn (State × List (sampleSite none).Event),
      resolved d.shared.2 = ["vault/token"] ∧
        System.Each (Bounded (sampleSite none)) d.shared.2 := by
  have hplay : (((process (sampleSite none)).recorded.play
      (Config.idle (({ clock := 0 } : State), []))
      (sampleMoves (sampleSite none) [sampleItem "a"] (List.replicate 9 (0, {})))).map
      fun d => @resolved (sampleSite none) d.shared.2) = some ["vault/token"] := by
    decide +kernel
  obtain ⟨d, hd, hends⟩ := Option.map_eq_some_iff.mp hplay
  exact ⟨d, hends, ceiling_binds (sampleSite none) 0 d
    (System.play_reaches _ (starts_sampleMoves _ _ _) hd)⟩

end Runner
end L1Agent
