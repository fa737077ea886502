import L1Agent.Runner.Agent

/-! # What a runner's thread does, and after what

A thread that has been handed an item carries out at most one call: the one that the item's
envelope holds, once it has been signed for and admitted, and is within the ceiling.  It asks for
credentials and reaches the target for that call only, and through the references that were
checked, or through those of a connector that was kept from before.

`Cleared` is what a call of a capability has passed, and `Allowed` what each operation has to come
after.  `handle_follows` puts it together from the parts of `make`; a connector's own code issues
nothing but the connector's operations (`issues_invoke`), whatever program it is.
-/
namespace L1Agent
namespace Runner
open Interleaving Literals

variable {site : Site} {item : Json}

/-- Nothing has been carried out yet. -/
def Uncarried (past : List Calls.Done) : Prop :=
  ∀ d ∈ past, ∀ connector order, d.op.call ≠ .carryOut connector order

/-- The connector's references are among those that the runner reads. -/
def Lawful (site : Site) (connector : Built) : Prop :=
  ∀ r ∈ connector.secretRefs, site.ceiling.Within connector.connectorId r.2

/-- The item holds this call, signed by the control plane. -/
def Holds (site : Site) (item call : Json) : Prop :=
  ∃ text signature, item.get? "envelope" = some (.str text) ∧
    item.get? "signature" = some (.str signature) ∧
    site.verify callDomain text signature = true ∧ site.loads text = some call

/-- **What a call of a capability has passed** before it is carried out. -/
structure Cleared (site : Site) (past : List Calls.Done) (item call : Json) (capabilityId : String)
    (parameters : Json) (capability : Capability) : Prop where
  known : ∃ manifest, site.registry (textOf call "connector_id") = some manifest ∧
    manifest.capability capabilityId = some capability
  permits : site.ceiling.Permits site.texts capability (textOf call "connector_id") parameters
  switch : capability.kind = .write → site.ceiling.killSwitchFile ≠ "" →
    (⟨⟨item, .killSwitch⟩, false⟩ : Calls.Done) ∈ past

/-- **What a thread may do** after what it has done. -/
def Allowed (site : Site) (past : List Calls.Done) (o : Op) : Prop :=
  match o.call with
  | .hold connectorId held =>
    held.connector.connectorId = connectorId ∧ Lawful site held.connector
  | .carryOut connector order => Uncarried past ∧ ∃ call claimedId, Holds site o.item call ∧
      (⟨⟨o.item, .accept call claimedId⟩, (.ok "" : Except Exn String)⟩ : Calls.Done) ∈ past ∧
      (connector.connectorId = textOf call "connector_id" ∧ Lawful site connector ∨
        ∃ held, held.connector = connector ∧
          (⟨⟨o.item, .held (textOf call "connector_id")⟩, some held⟩ : Calls.Done) ∈ past) ∧
      match order with
      | .testConnection => True
      | .invoke capabilityId parameters _ => ∃ capability,
          Cleared site past o.item call capabilityId parameters capability
  | .resolve reference _ => ∃ connector order,
      (⟨⟨o.item, .carryOut connector order⟩, ()⟩ : Calls.Done) ∈ past ∧
        ∃ slot, (slot, reference) ∈ connector.secretRefs
  | .send _ => ∃ connector order,
      (⟨⟨o.item, .carryOut connector order⟩, ()⟩ : Calls.Done) ∈ past
  | _ => True

/-! ## Before the call is carried out -/

/-- Nothing has been carried out, and these things have been done. -/
def Before (facts past : List Calls.Done) : Prop := Uncarried past ∧ ∀ d ∈ facts, d ∈ past

theorem before_nil : Before [] [] := ⟨fun _ h => (nomatch h), fun _ h => nomatch h⟩

theorem Before.snoc {facts past : List Calls.Done} (h : Before facts past) {d : Calls.Done}
    (hd : ∀ connector order, d.op.call ≠ .carryOut connector order) :
    Before (d :: facts) (past ++ [d]) := by
  refine ⟨fun d' hmem => ?_, fun d' hmem => ?_⟩
  · rcases List.mem_append.mp hmem with hmem | hmem
    · exact h.1 d' hmem
    · cases List.mem_singleton.mp hmem
      exact hd
  · rcases List.mem_cons.mp hmem with rfl | hmem
    · simp
    · exact List.mem_append_left _ (h.2 d' hmem)

theorem Before.drop {facts past : List Calls.Done} {d : Calls.Done} (h : Before (d :: facts) past) :
    Before facts past := ⟨h.1, fun d' hmem => h.2 d' (List.mem_cons_of_mem _ hmem)⟩

/-- The connector that references make which were not refused. -/
theorem lawful_builtWith {connectorId : String} {config : Json} {refs : List (String × String)}
    (h : site.ceiling.refuseReferences connectorId refs = none) :
    Lawful site (builtWith site connectorId (settingsFor site connectorId config refs)) := by
  intro r hr
  unfold builtWith settingsFor at hr ⊢
  dsimp only at hr ⊢
  split at hr
  · cases hr
  cases hlocal : site.ceiling.connections.lookup connectorId with
  | some l =>
    rw [hlocal] at hr
    exact .inr ⟨l, hlocal, r.1, hr⟩
  | none =>
    rw [hlocal] at hr
    exact Ceiling.within_of_inside (Ceiling.inside_of_refuseReferences hlocal h r hr)

/-- A connector that may be used: made from references that were checked, or kept from before. -/
def Usable (site : Site) (past : List Calls.Done) (item : Json) (connectorId : String)
    (connector : Built) : Prop :=
  connector.connectorId = connectorId ∧ Lawful site connector ∨
    ∃ held, held.connector = connector ∧
      (⟨⟨item, .held connectorId⟩, some held⟩ : Calls.Done) ∈ past

/-- **Getting the connector.** -/
theorem follows_connectorFor {connectorId : String} {config : Json} {refs : List (String × String)}
    (hrefs : site.ceiling.refuseReferences connectorId refs = none)
    {facts past : List Calls.Done} (h : Before facts past) :
    (connectorFor site item connectorId config refs).Follows (Allowed site) past fun past' r =>
      Before facts past' ∧ ∀ c, r = .ok c → Usable site past' item connectorId c := by
  have hbuild : ∀ {past : List Calls.Done} (key : String), Before facts past →
      (build site item connectorId (settingsFor site connectorId config refs) key).Follows
        (Allowed site) past fun past' r =>
          Before facts past' ∧ ∀ c, r = .ok c → Usable site past' item connectorId c := by
    intro past key h
    refine ⟨trivial, fun answer => ?_⟩
    have hbuilt := (h.snoc (d := ⟨⟨item, .build (builtWith site connectorId
      (settingsFor site connectorId config refs))⟩, answer⟩) (by rintro _ _ ⟨⟩)).drop
    cases answer with
    | error e => cases e <;> exact ⟨hbuilt, by rintro _ ⟨⟩⟩
    | ok u =>
      refine ⟨⟨rfl, lawful_builtWith hrefs⟩, fun _ =>
        ⟨(hbuilt.snoc (by rintro _ _ ⟨⟩)).drop, ?_⟩⟩
      rintro c ⟨⟩
      exact .inl ⟨rfl, lawful_builtWith hrefs⟩
  refine ⟨trivial, fun held => ?_⟩
  have hheld := h.snoc (d := ⟨⟨item, .held connectorId⟩, held⟩) fun _ _ h => nomatch h
  cases held with
  | none => exact hbuild _ hheld.drop
  | some held =>
    show Program.Follows _ (ite (held.digest = _) _ _) _ _
    by_cases hkey : held.digest = site.digest (.arr [(settingsFor site connectorId config refs).1,
        .obj ((settingsFor site connectorId config refs).2.map fun r => (r.1, .str r.2))])
    · rw [if_pos hkey]
      refine ⟨hheld.drop, ?_⟩
      rintro c ⟨⟩
      exact .inr ⟨held, rfl, hheld.2 _ (List.mem_cons_self ..)⟩
    · rw [if_neg hkey]
      refine ⟨trivial, fun answer => hbuild _ ?_⟩
      exact (hheld.drop.snoc (d := ⟨⟨item, .closeHeld connectorId⟩, answer⟩)
        fun _ _ h => nomatch h).drop

/-! ## While the call is carried out -/

/-- What a connector's code and its checks call. -/
def OfConnector (item : Json) (connector : Built) (o : Op) : Prop :=
  o.item = item ∧ match o.call with
  | .resolve reference _ => ∃ slot, (slot, reference) ∈ connector.secretRefs
  | .send _ | .killSwitch | .redeem .. | .used _ | .changed _ => True
  | _ => False

theorem issues_ask {P : Op → Prop} {call : Call} (h : P ⟨item, call⟩) :
    (ask item call).Issues P := ⟨h, fun _ => trivial⟩

theorem issues_ite {P : Op → Prop} {α : Type} {φ : Prop} [Decidable φ] {p q : Prog α}
    (hp : φ → p.Issues P) (hq : ¬ φ → q.Issues P) : (if φ then p else q).Issues P := by
  by_cases hφ : φ
  · rw [if_pos hφ]
    exact hp hφ
  · rw [if_neg hφ]
    exact hq hφ

theorem issues_secret (connector : Built) (slot : String) (fresh : Bool) :
    (secret item connector slot fresh).Issues (OfConnector item connector) := by
  unfold secret
  cases hslot : connector.secretRefs.lookup slot with
  | none => exact trivial
  | some reference =>
    dsimp only
    by_cases hempty : reference = ""
    · rw [if_pos hempty]
      exact trivial
    · rw [if_neg hempty]
      refine Program.Issues.bind (issues_ask ⟨rfl, slot, ?_⟩) fun x => Program.issues_ofExcept x
      obtain ⟨before, after, hsplit, -⟩ := List.lookup_eq_some_iff.mp hslot
      simp [hsplit]

theorem issues_runCode (connector : Built) (task : Task) :
    (runCode site item connector task).Issues (OfConnector item connector) :=
  (Program.issues_compositional _).translate (fun o => by
    cases o with
    | secret slot fresh => exact issues_secret connector slot fresh
    | send message => exact issues_ask ⟨rfl, trivial⟩) _

theorem issues_credentialsChanged (connector : Built) :
    (credentialsChanged item connector).Issues (OfConnector item connector) := by
  have hrereads : ∀ slots, (rereads item connector slots).Issues (OfConnector item connector) := by
    intro slots
    induction slots with
    | nil => exact trivial
    | cons slot slots ih => exact (issues_secret connector slot true).bind fun _ => ih
  refine Program.Issues.bind (issues_ask ⟨rfl, trivial⟩) fun (slots : List String) => ?_
  refine issues_ite (fun _ => trivial) fun _ => ?_
  exact (hrereads slots).bind fun _ => issues_ask ⟨rfl, trivial⟩

theorem issues_orUnavailable {P : Op → Prop} {p : Prog Result} (h : p.Issues P) :
    (orUnavailable p).Issues P := by
  refine Program.Issues.tryCatch h fun e => ?_
  cases e <;> exact trivial

theorem issues_redeem (connector : Built) (grant : Option Json) (context : List String)
    (capabilityId : String) (parameters : Json) :
    (redeem site item grant context capabilityId parameters).Issues
      (OfConnector item connector) := by
  have hswitch : (killSwitchOn site item).Issues (OfConnector item connector) :=
    issues_ite (fun _ => trivial) fun _ => issues_ask ⟨rfl, trivial⟩
  refine hswitch.bind fun on => ?_
  refine issues_ite (fun _ => trivial) fun _ => ?_
  refine issues_ite (fun _ => trivial) fun _ => ?_
  exact (issues_ask ⟨rfl, trivial⟩).bind fun answer => Program.issues_ofExcept answer

/-- **What a connector that is invoked calls** is its own. -/
theorem issues_invoke (connector : Built) (manifest : Manifest) (capabilityId : String)
    (parameters : Json) (context : List String) (grant : Option Json) (dryRun : Bool) :
    (invoke site item connector manifest capabilityId parameters context grant dryRun).Issues
      (OfConnector item connector) := by
  unfold invoke
  cases manifest.capability capabilityId with
  | none => exact trivial
  | some capability =>
    refine issues_ite (fun _ => ?_) fun _ => issues_ite (fun _ => trivial) fun _ => ?_
    · unfold invokeWrite
      refine issues_ite (fun _ => trivial) fun _ => issues_ite (fun _ => trivial) fun _ => ?_
      refine issues_orUnavailable (issues_ite (fun _ => ?_) fun _ => ?_)
      · exact issues_ite (fun _ => trivial) fun _ => issues_runCode connector _
      · exact (issues_redeem connector grant context capability.id parameters).bind fun _ =>
          issues_runCode connector _
    · refine issues_orUnavailable ((issues_runCode connector _).bind fun result => ?_)
      refine issues_ite (fun _ => trivial) fun _ => ?_
      refine (issues_credentialsChanged connector).bind fun rotated => ?_
      exact issues_ite (fun _ => issues_runCode connector _) fun _ => trivial

/-- What a connector calls is allowed once it has been given the call. -/
theorem follows_carried {connector : Built} {order : Order} {past : List Calls.Done} {α : Type}
    {p : Prog α} (hp : p.Issues (OfConnector item connector))
    (hpast : (⟨⟨item, .carryOut connector order⟩, ()⟩ : Calls.Done) ∈ past) :
    p.Follows (Allowed site) past fun _ _ => True := by
  refine (hp.abides (Program.growing_mem _) (fun past o hmem ho => ?_) past hpast).mono
    fun _ _ _ => trivial
  obtain ⟨o, call⟩ := o
  obtain ⟨rfl, hcall⟩ := ho
  cases call with
  | resolve reference fresh => exact ⟨connector, order, hmem, hcall⟩
  | send message => exact ⟨connector, order, hmem⟩
  | killSwitch | redeem | used | changed => exact trivial
  | accept | held | closeHeld | build | hold | carryOut | giveBack => exact hcall.elim

/-! ## The whole of it -/

/-- The call has been admitted, and nothing has been carried out. -/
def Admitted (past : List Calls.Done) (item call : Json) : Prop :=
  ∃ claimedId, Before [⟨⟨item, .accept call claimedId⟩, (.ok "" : Except Exn String)⟩] past

theorem follows_invokeCall {past : List Calls.Done} {call : Json} {connector : Built}
    {manifest : Manifest} {tenantId : String} {capability : Capability}
    (hholds : Holds site item call) (hadmitted : Admitted past item call)
    (husable : Usable site past item (textOf call "connector_id") connector)
    (hcleared : Cleared site past item call (textOf call "capability_id")
      (call.getD "parameters" .null) capability) :
    (invokeCall site item connector manifest call tenantId).Follows (Allowed site) past
      fun _ _ => True := by
  obtain ⟨claimedId, hbefore⟩ := hadmitted
  unfold invokeCall
  refine Program.Follows.bind (Program.Follows.attempt ?_)
  refine Program.Follows.mono (Q := fun _ _ => True) ?_ fun past' r _ => ?_
  rotate_left
  · cases r with
    | error e => cases e <;> exact trivial
    | ok result =>
      dsimp only
      cases toWire site result <;> exact trivial
  cases call.get? "grant" with
  | none => exact trivial
  | some grant =>
    refine ⟨⟨hbefore.1, call, claimedId, hholds, hbefore.2 _ (List.mem_singleton_self _), husable,
      capability, hcleared⟩, fun _ => ?_⟩
    exact follows_carried (issues_invoke ..) (List.mem_append_right _ (List.mem_singleton_self _))

/-- The rest of a call of a capability, once the switch has been looked at. -/
theorem follows_afterSwitch {past facts : List Calls.Done} {call : Json} {manifest : Manifest}
    {capability : Capability} {refs : List (String × String)} {claimedId : String}
    (hholds : Holds site item call)
    (hbefore : Before facts past)
    (haccept : (⟨⟨item, .accept call claimedId⟩, (.ok "" : Except Exn String)⟩ : Calls.Done) ∈ facts)
    (hmanifest : site.registry (textOf call "connector_id") = some manifest)
    (hcapability : manifest.capability (textOf call "capability_id") = some capability)
    (hrefused : site.ceiling.refuseCapability site.texts capability = none)
    (htargets : site.ceiling.refuseTargets site.texts capability (textOf call "connector_id")
      (call.getD "parameters" .null) refs = none)
    (hswitch : capability.kind = .write → site.ceiling.killSwitchFile ≠ "" →
      (⟨⟨item, .killSwitch⟩, false⟩ : Calls.Done) ∈ facts) :
    Program.Follows (Allowed site) (do
      let connector ← connectorFor site item (textOf call "connector_id")
        ((call.getD "connection" .null).getD "config" .null) refs
      match call.get? "tenant_id" with
      | some (.str text) => match site.parseUuid text with
        | some tenantId => invokeCall site item connector manifest call tenantId
        | none => throw (.other "ValueError")
      | _ => throw (.other "AttributeError")) past fun _ _ => True := by
  obtain ⟨hpermits, hrefs⟩ := Ceiling.permits_of_refuse hrefused htargets
  refine Program.Follows.bind ((follows_connectorFor hrefs hbefore).mono ?_)
  rintro past' r ⟨hbefore', husable⟩
  cases r with
  | error e => exact trivial
  | ok connector =>
    dsimp only
    split
    · split
      · refine follows_invokeCall hholds ⟨claimedId, hbefore'.1, fun d hd => ?_⟩ (husable _ rfl)
          ⟨⟨manifest, hmanifest, hcapability⟩, hpermits, fun hwrite hfile =>
            hbefore'.2 _ (hswitch hwrite hfile)⟩
        cases List.mem_singleton.mp hd
        exact hbefore'.2 _ haccept
      · exact trivial
    · exact trivial

/-- Looking at the switch, for a write. -/
theorem follows_switchFor {past facts : List Calls.Done} (capability : Capability)
    (hbefore : Before facts past) :
    (switchFor site item capability).Follows (Allowed site) past fun past' r =>
      ∃ facts', Before facts' past' ∧ (∀ d ∈ facts, d ∈ facts') ∧
        (r = .ok false → capability.kind = .write → site.ceiling.killSwitchFile ≠ "" →
          (⟨⟨item, .killSwitch⟩, false⟩ : Calls.Done) ∈ facts') := by
  by_cases hwrite : capability.kind = .write
  · by_cases hfile : site.ceiling.killSwitchFile = ""
    · have hquiet : switchFor site item capability = pure false :=
        (if_pos hwrite).trans (if_pos hfile)
      rw [hquiet]
      exact ⟨facts, hbefore, fun _ hd => hd, fun _ _ h => absurd hfile h⟩
    · have hasks : switchFor site item capability = ask item .killSwitch :=
        (if_pos hwrite).trans (if_neg hfile)
      rw [hasks]
      refine ⟨trivial, fun on => ⟨_, hbefore.snoc (d := ⟨⟨item, .killSwitch⟩, on⟩)
        (by rintro _ _ ⟨⟩), fun _ hd => List.mem_cons_of_mem _ hd, fun hoff _ _ => ?_⟩⟩
      cases hoff
      exact List.mem_cons_self ..
  · have hquiet : switchFor site item capability = pure false := if_neg hwrite
    rw [hquiet]
    exact ⟨facts, hbefore, fun _ hd => hd, fun _ h => absurd h hwrite⟩

theorem follows_makeCapability {past : List Calls.Done} {call : Json} {manifest : Manifest}
    {refs : List (String × String)} (hholds : Holds site item call)
    (hadmitted : Admitted past item call)
    (hmanifest : site.registry (textOf call "connector_id") = some manifest) :
    (makeCapability site item manifest call refs).Follows (Allowed site) past fun _ _ => True := by
  obtain ⟨claimedId, hbefore⟩ := hadmitted
  unfold makeCapability
  dsimp only
  cases hcapability : manifest.capability (textOf call "capability_id") with
  | none => exact trivial
  | some capability =>
    dsimp only
    cases hrefused : site.ceiling.refuseCapability site.texts capability with
    | some reason => exact trivial
    | none =>
      dsimp only
      refine Program.Follows.bind ((follows_switchFor capability hbefore).mono ?_)
      rintro past' r ⟨facts, hbefore', hfacts, hswitch⟩
      cases r with
      | error e => exact trivial
      | ok on =>
        cases on with
        | true => exact trivial
        | false =>
          dsimp only
          rw [if_neg Bool.false_ne_true]
          cases htargets : site.ceiling.refuseTargets site.texts capability
              (textOf call "connector_id") (call.getD "parameters" .null) refs with
          | some reason => exact trivial
          | none =>
            exact follows_afterSwitch hholds hbefore' (hfacts _ (List.mem_singleton_self _))
              hmanifest hcapability hrefused htargets (hswitch rfl)

theorem follows_makeTest {past : List Calls.Done} {call : Json} {refs : List (String × String)}
    (hholds : Holds site item call) (hadmitted : Admitted past item call) :
    (makeTest site item call refs).Follows (Allowed site) past fun _ _ => True := by
  obtain ⟨claimedId, hbefore⟩ := hadmitted
  unfold makeTest
  dsimp only
  cases hrefused : site.ceiling.refuseTest (textOf call "connector_id") refs with
  | some reason => exact trivial
  | none =>
    dsimp only
    refine Program.Follows.bind ((follows_connectorFor hrefused hbefore).mono ?_)
    rintro past' r ⟨hbefore', husable⟩
    cases r with
    | error e => exact trivial
    | ok connector =>
      refine ⟨⟨hbefore'.1, call, claimedId, hholds, hbefore'.2 _ (List.mem_singleton_self _),
        husable _ rfl, trivial⟩, fun _ => ?_⟩
      show (Program.bind (runCode site item connector .testConnection) _).Follows _ _ _
      refine Program.Follows.bind ((follows_carried (issues_runCode connector .testConnection)
        (List.mem_append_right _ (List.mem_singleton_self _))).mono fun _ r _ => ?_)
      cases r <;> exact trivial

theorem follows_makeAdmitted {past : List Calls.Done} {call : Json}
    (hholds : Holds site item call) (hadmitted : Admitted past item call) :
    (makeAdmitted site item call).Follows (Allowed site) past fun _ _ => True := by
  unfold makeAdmitted
  dsimp only
  cases hmanifest : site.registry (textOf call "connector_id") with
  | none => exact trivial
  | some manifest =>
    dsimp only
    split
    · exact trivial
    · split
      · exact follows_makeTest hholds hadmitted
      · exact follows_makeCapability hholds hadmitted hmanifest

theorem follows_make (claimedId : String) :
    (make site item claimedId).Follows (Allowed site) [] fun _ _ => True := by
  unfold make
  split
  · rename_i text signature htext hsignature
    split
    · exact trivial
    · rename_i hverify
      cases hloads : site.loads text with
      | none => exact trivial
      | some call =>
        have hholds : Holds site item call :=
          ⟨text, signature, htext, hsignature, by simpa using hverify, hloads⟩
        refine ⟨trivial, fun problem => ?_⟩
        have hbefore := before_nil.snoc (d := ⟨⟨item, .accept call claimedId⟩, problem⟩)
          (by rintro _ _ ⟨⟩)
        cases problem with
        | error e => exact trivial
        | ok problem =>
          by_cases hproblem : problem = ""
          · subst hproblem
            exact follows_makeAdmitted hholds ⟨claimedId, hbefore⟩
          · show Program.Follows _ (ite (problem ≠ "") _ _) _ _
            rw [if_pos hproblem]
            exact trivial
  · exact trivial

/-- **A thread of the runner does what is allowed.** -/
theorem handle_follows (item : Json) :
    (handle site item).Follows (Allowed site) [] fun _ _ => True := by
  unfold handle
  dsimp only
  generalize (if item.isObj = true then site.texts.builtins.str (item.getD "id" (.str "")) else "") =
    callId
  split
  · exact trivial
  · refine Program.Follows.bind (Program.Follows.attempt ((follows_make _).mono ?_))
    intro past r _
    exact ⟨trivial, fun _ => trivial⟩

end Runner
end L1Agent
