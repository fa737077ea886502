import L1Agent.Actions.Attempted

/-! # A rollback is for a write that was handed over

Between the authorisation of a write and the write itself the registry checks the call once
more, reads the switches and redeems the grant, and a runner may not take the call.  Each of
these turns the write away with an exception, and the attempt answers every exception but
`OutcomeUnknown` with a rollback.  So a rollback is for a write that was handed over in the
runs in which no write with a declared rollback is turned away (`rollback_after_write`), and
not in all of them (`rollback_unsent`).

The order of an attempt's own calls is `Allowed`, and `follows_perform` says that it is kept,
whatever the calls are answered.  `SentOnly` is the statement about a run: before each call of a
rollback the write of the action has been handed over, and an attempt that has been turned away
calls the target no more.
-/
namespace L1Agent
open Interleaving

/-! ## Being turned away -/

/-- The exceptions by which the registry, the grant's check or a runner turns a call away. -/
def turnedAway : List String :=
  ["Refused", "LookupError", "PermissionError", "WriteNotAuthorized", "RunnerUnavailable"]

/-- The target system is called. -/
def Op.AtTarget : Op → Prop
  | .write .. | .dryRun .. | .callAdapter .. => True
  | _ => False

/-- The grant for the write is minted. -/
def Op.Mints : Op → Prop
  | .mint .write .. => True
  | _ => False

/-- The write is tried. -/
def Op.Tries : Op → Prop
  | .write .write .. => True
  | _ => False

/-- A kill switch is read. -/
def Op.ReadsSwitch : Op → Prop
  | .db .switchesOn | .localSwitch => True
  | _ => False

/-- The answer turns the call away. -/
def Op.TurnsAway : (o : Op) → Except Exn o.Val → Prop
  | .db (.authoriseExecution ..), x => ∃ why : String, x = .ok (.error why)
  | .dryRun .., x => ∀ a : WriteAnswer, x = .ok a → a.success = false
  | .checkCall .., x => ∃ e, x = .error e
  | .write .., x => ∃ e, x = .error e ∧ e.kind ∈ turnedAway
  | .db .switchesOn, x => ∀ on : List String, x = .ok on → on ≠ []
  | .localSwitch, x => ∀ file : Bool, x = .ok file → file = true
  | _, _ => False

/-- A write has been authorised by the attempt, and not tried yet. -/
def Underway (past : List Calls.Done) : Prop :=
  (∃ d ∈ past, Op.Mints d.op) ∧ ∀ d ∈ past, ¬ Op.Tries d.op

/-- The attempt's call was turned away.  A switch turns a write away only between its
authorisation and itself: before that it is the policy that looks at it. -/
def TurnedAway (past : List Calls.Done) (d : Calls.Done) : Prop :=
  Op.TurnsAway d.op d.answer ∧ (Op.ReadsSwitch d.op → Underway past)

/-- The attempt has not been turned away. -/
abbrev Unrefused : List Calls.Done → Prop := Program.Given fun past d => ¬ TurnedAway past d

/-- The write can be undone. -/
def Capability.DeclaresRollback (c : Capability) : Prop :=
  ¬ (c.rollback = "" ∨ ActionService.saysNone c.rollback = true)

/-- The call that is checked is of a capability with a declared rollback. -/
def Op.Undoable (site : Site) : Op → Prop
  | .checkCall capabilityId _ =>
    ∃ c, site.registry.capability capabilityId = some c ∧ c.DeclaresRollback
  | _ => False

/-- **A write with a declared rollback was turned away**, after it had been authorised. -/
def Spoiled (site : Site) (past : List Calls.Done) (d : Calls.Done) : Prop :=
  Underway past ∧ Op.TurnsAway d.op d.answer ∧ ∃ e ∈ past ++ [d], Op.Undoable site e.op

/-- The checks on the way to a write. -/
def Op.OnTheWay : Op → Prop
  | .checkCall .. | .db .switchesOn | .localSwitch => True
  | _ => False

/-- They do not say that the outcome of a write is unknown, as the dispatcher does. -/
def Plainly (d : Calls.Done) : Prop :=
  Op.OnTheWay d.op → ∀ e, d.answer = .error e → e.kind ≠ "OutcomeUnknown"

/-- The answers that the attempts are taken to get. -/
structure Expected (site : Site) (past : List Calls.Done) (d : Calls.Done) : Prop where
  honest : Honest past d
  whole : ¬ Spoiled site past d
  plainly : Plainly d

/-! ## Having been handed over -/

/-- The registry handed the write of the action over, to the connector or to a runner. -/
def HandsOver (id : Nat) (d : Calls.Done) : Prop :=
  ∃ (grant : Grant) (call : WriteCall) (x : Except Exn WriteAnswer),
    d = ⟨.write .write id grant call, x⟩ ∧ ∀ e, x = .error e → e.kind ∉ turnedAway

/-- The attempt has handed the write over, or has seen that it was accepted. -/
def Entitled (past : List Calls.Done) (id : Nat) : Prop :=
  (∃ d ∈ past, HandsOver id d) ∨
    ∃ r, Reported past r ∧ r.id = id ∧ r.status = .executed

/-- **What an attempt may call** after what it has done. -/
structure Allowed (past : List Calls.Done) (o : Op) : Prop where
  target : o.AtTarget → Unrefused past
  rollback : ∀ id grant call, o = .write .rollback id grant call → Entitled past id
  executed : ∀ id fromStatuses event payload values wake,
    o = .db (.transition id fromStatuses .executed event payload values wake) →
      ∃ d ∈ past, HandsOver id d
  decision : ∀ d payload, o = .db (.recordDecision d payload) → d.status ≠ .executed

/-- The operation is no part of a write's way. -/
def Op.Inert : Op → Prop
  | .db .switchesOn | .db (.authoriseExecution ..) | .localSwitch | .checkCall .. | .dryRun ..
  | .write .. | .mint .write .. => False
  | _ => True

theorem Op.Inert.still {o : Op} (h : o.Inert) : ¬ o.Mints ∧ ¬ o.Tries := by
  constructor <;> intro ht
  · cases o with
    | mint purpose => cases purpose <;> first | exact h.elim | exact ht.elim
    | _ => exact ht.elim
  · cases o with
    | write => exact h.elim
    | _ => exact ht.elim

theorem Op.Inert.not_away {o : Op} (h : o.Inert) (x : Except Exn o.Val) : ¬ o.TurnsAway x := by
  intro haway
  cases o with
  | db c => cases c <;> first | exact h.elim | exact haway.elim
  | localSwitch | checkCall | dryRun | write => exact h.elim
  | _ => exact haway.elim

/-! ## The pasts of an attempt -/

section
variable {site : Site} {past : List Calls.Done} {d : Calls.Done} {id : Nat}

theorem Entitled.snoc (h : Entitled past id) (d : Calls.Done) : Entitled (past ++ [d]) id := by
  rcases h with ⟨e, he, hands⟩ | ⟨r, hr, hid, hs⟩
  · exact .inl ⟨e, List.mem_append_left _ he, hands⟩
  · exact .inr ⟨r, hr.snoc d, hid, hs⟩

theorem not_underway_snoc (h : ¬ Underway past) (hd : ¬ Op.Mints d.op) :
    ¬ Underway (past ++ [d]) := by
  rintro ⟨⟨e, he, hmints⟩, htries⟩
  refine h ⟨?_, fun x hx => htries x (List.mem_append_left _ hx)⟩
  rcases List.mem_append.mp he with he | he
  · exact ⟨e, he, hmints⟩
  · cases List.mem_singleton.mp he
    exact absurd hmints hd

/-- Nothing has been authorised, or tried, or turned away. -/
structure Untouched (past : List Calls.Done) : Prop where
  unrefused : Unrefused past
  still : ∀ d ∈ past, ¬ Op.Mints d.op ∧ ¬ Op.Tries d.op

theorem Untouched.idle (h : Untouched past) : ¬ Underway past := by
  rintro ⟨⟨d, hd, hmints⟩, -⟩
  exact (h.still d hd).1 hmints

theorem Untouched.snoc (h : Untouched past) (hd : ¬ Op.Mints d.op ∧ ¬ Op.Tries d.op)
    (haway : Op.TurnsAway d.op d.answer → Op.ReadsSwitch d.op) : Untouched (past ++ [d]) where
  unrefused := h.unrefused.snoc fun hturned => h.idle (hturned.2 (haway hturned.1))
  still e he := by
    rcases List.mem_append.mp he with he | he
    · exact h.still e he
    · cases List.mem_singleton.mp he
      exact hd

theorem Untouched.switch (past : List Calls.Done) (d : Calls.Done) (h : Untouched past)
    (hd : Op.ReadsSwitch d.op) : Untouched (past ++ [d]) := by
  refine h.snoc ?_ fun _ => hd
  obtain ⟨o, x⟩ := d
  cases o <;> first | exact hd.elim | exact ⟨fun h => h, fun h => h⟩

theorem Untouched.inert (h : Untouched past) {o : Op} (ho : o.Inert) (x : Except Exn o.Val) :
    Untouched (past ++ [⟨o, x⟩]) :=
  h.snoc ho.still fun haway => absurd haway (ho.not_away x)

/-- A rollback may be made. -/
structure Ready (past : List Calls.Done) (id : Nat) : Prop where
  unrefused : Unrefused past
  idle : ¬ Underway past
  entitled : Entitled past id

theorem Ready.snoc (h : Ready past id) (hd : ¬ Op.Mints d.op)
    (haway : Op.TurnsAway d.op d.answer → Op.ReadsSwitch d.op) : Ready (past ++ [d]) id where
  unrefused := h.unrefused.snoc fun hturned => h.idle (hturned.2 (haway hturned.1))
  idle := not_underway_snoc h.idle hd
  entitled := h.entitled.snoc d

theorem Ready.switch (past : List Calls.Done) (d : Calls.Done) (h : Ready past id)
    (hd : Op.ReadsSwitch d.op) : Ready (past ++ [d]) id := by
  refine h.snoc (fun hmints => ?_) fun _ => hd
  obtain ⟨o, x⟩ := d
  cases o <;> first | exact hd.elim | exact hmints.elim

theorem Ready.inert (h : Ready past id) {o : Op} (ho : o.Inert) (x : Except Exn o.Val) :
    Ready (past ++ [⟨o, x⟩]) id :=
  h.snoc ho.still.1 fun haway => absurd haway (ho.not_away x)

theorem Unrefused.inert (h : Unrefused past) {o : Op} (ho : o.Inert) (x : Except Exn o.Val) :
    Unrefused (past ++ [⟨o, x⟩]) :=
  h.snoc fun hturned => ho.not_away x hturned.1

/-- The write has been authorised, and is on its way. -/
structure Sending (past : List Calls.Done) : Prop where
  unrefused : Unrefused past
  underway : Underway past

theorem Sending.snoc (h : Sending past) (hd : ¬ Op.Tries d.op)
    (haway : ¬ Op.TurnsAway d.op d.answer) : Sending (past ++ [d]) where
  unrefused := h.unrefused.snoc fun hturned => haway hturned.1
  underway := by
    obtain ⟨⟨e, he, hmints⟩, htries⟩ := h.underway
    refine ⟨⟨e, List.mem_append_left _ he, hmints⟩, fun x hx => ?_⟩
    rcases List.mem_append.mp hx with hx | hx
    · exact htries x hx
    · cases List.mem_singleton.mp hx
      exact hd

/-- What turns a write away on its way is of one that cannot be undone. -/
theorem Sending.not_undoable (h : Sending past) (hd : Expected site past d)
    (haway : Op.TurnsAway d.op d.answer) :
    ∀ e ∈ past ++ [d], ¬ Op.Undoable site e.op :=
  fun e he hundo => hd.whole ⟨h.underway, haway, e, he, hundo⟩

end

/-! ## What an attempt does -/

/-- The operations by which an action is closed, which does not take it to `executed`. -/
abbrev Op.Closes : Op → Prop := Op.Closing (· ≠ .executed)

theorem Op.Closes.allowed {o : Op} (h : o.Closes) (past : List Calls.Done) : Allowed past o where
  target ht := by
    cases o with
    | write | dryRun | callAdapter => exact h.elim
    | _ => exact ht.elim
  rollback := by
    rintro id grant call rfl
    exact h.elim
  executed := by
    rintro id fromStatuses event payload values wake rfl
    exact absurd rfl h
  decision := by
    rintro d payload rfl
    exact h.elim

/-- An operation that is none of those the claim is about. -/
theorem allowed_of_not_target {past : List Calls.Done} {o : Op} (ht : ¬ o.AtTarget)
    (hexecuted : ∀ id fromStatuses event payload values wake,
      o ≠ .db (.transition id fromStatuses .executed event payload values wake))
    (hdecision : ∀ d payload, o = .db (.recordDecision d payload) → d.status ≠ .executed) :
    Allowed past o where
  target h := absurd h ht
  rollback := by
    rintro id grant call rfl
    exact absurd trivial ht
  executed id fromStatuses event payload values wake h := (hexecuted _ _ _ _ _ _ h).elim
  decision := hdecision

namespace ActionService
variable {site : Site} {call : ActionCall} {capability : Capability} {past : List Calls.Done}

/-- The end of an attempt, whatever came before. -/
theorem follows_closing {α : Type} {p : Prog α} (hp : p.Issues Op.Closes) :
    p.FollowsFor (Expected site) Allowed past fun _ _ => True :=
  hp.followsFor (K := fun _ => True) (fun past _ _ ho => Op.Closes.allowed ho past)
    (fun _ _ _ _ _ => trivial) trivial

/-- A kill switch that is read when no write is on its way turns nothing away. -/
theorem follows_killSwitches {K : List Calls.Done → Prop}
    (hkeep : ∀ past (d : Calls.Done), K past → Op.ReadsSwitch d.op → K (past ++ [d]))
    (hK : K past) :
    killSwitches.FollowsFor (Expected site) Allowed past fun past' _ => K past' := by
  have hallowed : ∀ past (o : Op), o.ReadsSwitch → Allowed past o := by
    intro past o ho
    refine allowed_of_not_target (fun ht => ?_) ?_ ?_
    · cases o <;> first | exact ho.elim | exact ht.elim
    · rintro id fromStatuses event payload values wake rfl
      exact ho.elim
    · rintro d payload rfl
      exact ho.elim
  refine followsFor_ask (hallowed _ _ trivial) (fun e _ => hkeep past _ hK trivial) fun on _ => ?_
  have hK' := hkeep past ⟨.db .switchesOn, .ok on⟩ hK trivial
  exact followsFor_ask (hallowed _ _ trivial) (fun e _ => hkeep _ _ hK' trivial)
    fun file _ => hkeep _ ⟨.localSwitch, .ok file⟩ hK' trivial

/-- **A rollback** is made when it may be. -/
theorem follows_undo (row : ActionRow) (declared : String) (parameters : Json)
    (h : Ready past row.id) :
    (undo site row declared parameters).FollowsFor (Expected site) Allowed past fun _ _ => True := by
  have hinvoke : ∀ past' grant, Ready past' row.id →
      (invokeWrite site .rollback row declared parameters grant).FollowsFor (Expected site) Allowed
        past' fun _ _ => True := by
    intro past' grant h
    refine followsFor_ask (allowed_of_not_target id (by rintro _ _ _ _ _ _ ⟨⟩) (by rintro _ _ ⟨⟩))
      (fun _ _ => trivial) fun _ _ => ?_
    have hchecked : Ready (past' ++ [⟨.checkCall declared parameters, .ok ()⟩]) row.id :=
      h.snoc (fun hmints => hmints.elim) (by rintro ⟨e, ⟨⟩⟩)
    refine Program.FollowsFor.bind ((follows_killSwitches Ready.switch hchecked).mono
      fun past'' r hr => ?_)
    cases r with
    | error e => trivial
    | ok on =>
      refine Program.FollowsFor.ite (fun _ => trivial) fun _ => ?_
      refine followsFor_ask_only ⟨fun _ => hr.unrefused, ?_, by rintro _ _ _ _ _ _ ⟨⟩,
        by rintro _ _ ⟨⟩⟩ fun _ _ => trivial
      rintro id grant' call' ⟨⟩
      exact hr.entitled
  refine Program.FollowsFor.bind ?_
  show Program.FollowsFor (Expected site) Allowed (authoriseRollback site row declared parameters)
    past _
  refine Program.FollowsFor.bind ((follows_killSwitches Ready.switch h).mono fun past' r hr => ?_)
  cases r with
  | error e => trivial
  | ok on =>
    refine Program.FollowsFor.ite (fun _ => trivial) fun _ => ?_
    refine followsFor_ask (allowed_of_not_target id (by rintro _ _ _ _ _ _ ⟨⟩) (by rintro _ _ ⟨⟩))
      (fun _ _ => trivial) fun moved _ => ?_
    cases moved with
    | none => trivial
    | some row' =>
      refine followsFor_ask (allowed_of_not_target id (by rintro _ _ _ _ _ _ ⟨⟩)
        (by rintro _ _ ⟨⟩)) (fun _ _ => trivial) fun grant _ => ?_
      have hmoved := hr.inert (o := .db (.transition row.id [.executing, .executed] .rollingBack
        "action.rolling_back" [("rollback", .str declared), ("parameters", parameters)] {} false))
          trivial (.ok (some row'))
      have hready := hmoved.inert (o := .mint .rollback row declared
        (callDigest site.sha declared parameters)) trivial (.ok grant)
      exact Program.FollowsFor.bind (Program.FollowsFor.attempt
        ((hinvoke _ grant hready).mono fun _ _ _ => trivial))

theorem follows_rollBack {row : ActionRow} (why evidence : String)
    (h : capability.DeclaresRollback → Ready past row.id) :
    (rollBack site call capability row why evidence).FollowsFor (Expected site) Allowed past
      fun _ _ => True := by
  have hend : ∀ (row : ActionRow), (do
      closeChange row false ((row.result.bind (·.message)).getD why)
      Program.ofExcept (finalResult site call.step row) : Prog ActionAnswer).Issues Op.Closes :=
    fun row => Program.Issues.bind (closing_closeChange ..) fun _ => Program.issues_ofExcept _
  refine Program.FollowsFor.bind (Program.FollowsFor.mono (Q := fun _ _ => True) ?_
    fun past' r _ => ?_)
  · refine Program.FollowsFor.ite (fun _ => follows_closing (closing_finish row _ (by rintro ⟨⟩)))
      fun hdeclared => ?_
    refine Program.FollowsFor.bind ((follows_undo row _ _ (h hdeclared)).mono fun past' r _ => ?_)
    cases r with
    | error e => trivial
    | ok undone =>
      refine follows_closing (closing_finish row _ ?_)
      unfold afterUndo
      split <;> rintro ⟨⟩
  · cases r with
    | error e => trivial
    | ok row' => exact follows_closing (hend row')

/-- The verification reads are made by an attempt that has not been turned away. -/
theorem follows_verifyReads {K : List Calls.Done → Prop} (hK : ∀ past, K past → Unrefused past)
    (hkeep : ∀ past (o : Op), K past → o.Inert → ∀ x : Except Exn o.Val, K (past ++ [⟨o, x⟩]))
    (step : SOPStep) (action : Nat) (spec : Verify) (assertion parameters : Json) (n attempt : Nat)
    (why : String) (last : Option AdapterResult) (h : K past) :
    (verifyReads site step action spec assertion parameters n attempt why last).FollowsFor
      (Expected site) Allowed past fun past' _ => K past' := by
  induction n generalizing past attempt why last with
  | zero => exact h
  | succ n ih =>
    refine followsFor_ask ⟨fun _ => hK _ h, by rintro _ _ _ ⟨⟩, by rintro _ _ _ _ _ _ ⟨⟩,
      by rintro _ _ ⟨⟩⟩ (fun e _ => hkeep _ _ h (by exact trivial) _) fun a _ => ?_
    have hread : K (past ++ [⟨.callAdapter spec.capability parameters step.stepId attempt
        (some ⟨action, assertion, step.parameters⟩), .ok a⟩]) := hkeep _ _ h (by exact trivial) _
    refine Program.FollowsFor.bind (Program.FollowsFor.ofExcept ?_)
    cases glance site step assertion spec.failed a with
    | error e => exact hread
    | ok seen =>
      cases seen with
      | failed error => exact ih _ _ _ hread
      | holds result => exact hread
      | failedAgain result => exact hread
      | notYet result => exact ih _ _ _ hread

theorem follows_verifyAndFinish {row : ActionRow} (evidence : String) (lost : Option String)
    (hunrefused : Unrefused past) (hready : lost = none → Ready past row.id) :
    (verifyAndFinish site call capability row evidence lost).FollowsFor (Expected site) Allowed past
      fun _ _ => True := by
  unfold verifyAndFinish
  split
  · trivial
  refine Program.FollowsFor.bind (Program.FollowsFor.ofExcept ?_)
  split
  · rename_i plan hplan
    refine Program.FollowsFor.bind ((follows_verifyReads
      (K := fun past => Unrefused past ∧ (lost = none → Ready past row.id)) (fun _ h => h.1)
      (fun past o h ho x => ⟨h.1.inert ho x, fun hlost => (h.2 hlost).inert ho x⟩) _ _ _ _ _ _ _ _ _
      ⟨hunrefused, hready⟩).mono fun past' r hr => ?_)
    cases r with
    | error e => trivial
    | ok seen =>
      cases seen with
      | shown attempts result =>
        refine follows_closing (Program.Issues.bind (closing_finish row _ (by rintro ⟨⟩)) fun _ =>
          Program.Issues.bind (closing_closeChange ..) fun _ => Program.issues_ofExcept _)
      | notShown why last =>
        cases lost with
        | none => exact follows_rollBack _ _ fun _ => hr.2 rfl
        | some lost =>
          exact follows_closing (Program.Issues.bind (closing_finish row _ (by rintro ⟨⟩)) fun _ =>
            Program.issues_ofExcept _)
  · trivial

/-- What is known when the write has been tried. -/
def Sent (capability : Capability) (id : Nat) (past : List Calls.Done)
    (r : Except Exn WriteAnswer) : Prop :=
  (Ready past id ∧ ∃ d ∈ past, HandsOver id d) ∨
    ∃ e, r = .error e ∧ e.kind ≠ "OutcomeUnknown" ∧ ¬ capability.DeclaresRollback

/-- The attempt's call has been checked. -/
abbrev Checked (capability : Capability) (parameters : Json) (past : List Calls.Done) : Prop :=
  (⟨.checkCall capability.id parameters, .ok ()⟩ : Calls.Done) ∈ past

/-- What has passed its check is not turned away, if it has a declared rollback. -/
theorem Checked.not_declares {parameters : Json} {d : Calls.Done}
    (hcapability : site.registry.capability capability.id = some capability)
    (h : Checked capability parameters past) (hsending : Sending past) (hd : Expected site past d)
    (haway : Op.TurnsAway d.op d.answer) : ¬ capability.DeclaresRollback := fun hdeclares =>
  hsending.not_undoable hd haway _ (List.mem_append_left _ h) ⟨capability, hcapability, hdeclares⟩

/-- The switches on the way of a write. -/
theorem follows_switchesOnTheWay {parameters : Json}
    (hcapability : site.registry.capability capability.id = some capability)
    (h : Sending past) (hchecked : Checked capability parameters past) :
    killSwitches.FollowsFor (Expected site) Allowed past fun past' r =>
      (r = .ok [] ∧ Sending past' ∧ Checked capability parameters past') ∨
        (¬ capability.DeclaresRollback ∧ r ≠ .ok [] ∧
          ∀ e, r = .error e → e.kind ≠ "OutcomeUnknown") := by
  refine followsFor_ask (allowed_of_not_target (by exact fun ht => ht) (by rintro _ _ _ _ _ _ ⟨⟩)
    (by rintro _ _ ⟨⟩)) (fun e he => .inr ⟨?_, by rintro ⟨⟩, ?_⟩) fun on hon => ?_
  · exact hchecked.not_declares hcapability h he (by rintro _ ⟨⟩)
  · rintro _ ⟨⟩
    exact he.plainly trivial e rfl
  refine followsFor_ask (allowed_of_not_target (by exact fun ht => ht) (by rintro _ _ _ _ _ _ ⟨⟩)
    (by rintro _ _ ⟨⟩)) (fun e he => .inr ⟨?_, by rintro ⟨⟩, ?_⟩) fun file hfile => ?_
  · by_cases hempty : on = []
    · subst hempty
      have hsending := h.snoc (d := ⟨.db .switchesOn, .ok []⟩) (by exact fun ht => ht)
        (by exact fun haway => haway [] rfl rfl)
      exact Checked.not_declares hcapability (List.mem_append_left _ hchecked) hsending he
        (by rintro _ ⟨⟩)
    · refine hchecked.not_declares hcapability h hon ?_
      rintro _ ⟨⟩
      exact hempty
  · rintro _ ⟨⟩
    exact he.plainly trivial e rfl
  · by_cases hempty : on = []
    · subst hempty
      have hsending := h.snoc (d := ⟨.db .switchesOn, .ok []⟩) (by exact fun ht => ht)
        (by exact fun haway => haway [] rfl rfl)
      have hchecked' : Checked capability parameters (past ++ [⟨.db .switchesOn, .ok []⟩]) :=
        List.mem_append_left _ hchecked
      cases file with
      | true =>
        refine .inr ⟨hchecked'.not_declares hcapability hsending hfile ?_, by rintro ⟨⟩,
          by rintro _ ⟨⟩⟩
        rintro _ ⟨⟩
        rfl
      | false =>
        refine .inl ⟨rfl, hsending.snoc (by exact fun ht => ht) ?_, List.mem_append_left _ hchecked'⟩
        exact fun haway => nomatch haway false rfl
    · refine .inr ⟨hchecked.not_declares hcapability h hon ?_, ?_, by rintro _ ⟨⟩⟩
      · rintro _ ⟨⟩
        exact hempty
      · intro hnil
        have happend := Except.ok.inj hnil
        exact hempty (List.append_eq_nil_iff.mp happend).1

/-- **The write on its way**: it is handed over, or turned away, which it may be if it cannot be
undone. -/
theorem follows_invokeWrite (hcapability : site.registry.capability capability.id = some capability)
    (row : ActionRow) (parameters : Json) (grant : Grant) (h : Sending past) :
    (invokeWrite site .write row capability.id parameters grant).FollowsFor (Expected site) Allowed
      past fun past' r => Sent capability row.id past' r := by
  refine followsFor_ask (allowed_of_not_target (by exact fun ht => ht) (by rintro _ _ _ _ _ _ ⟨⟩)
    (by rintro _ _ ⟨⟩)) (fun e he => .inr ⟨e, rfl, he.plainly trivial e rfl, fun hdeclares => ?_⟩)
      fun _ _ => ?_
  · exact h.not_undoable he ⟨e, rfl⟩ _ (List.mem_append_right _ (List.mem_singleton.mpr rfl))
      ⟨capability, hcapability, hdeclares⟩
  have hchecked : Checked capability parameters
      (past ++ [⟨.checkCall capability.id parameters, .ok ()⟩]) :=
    List.mem_append_right _ (List.mem_singleton.mpr rfl)
  have hsending := h.snoc (d := ⟨.checkCall capability.id parameters, .ok ()⟩)
    (by exact fun ht => ht) (by rintro ⟨e, ⟨⟩⟩)
  refine Program.FollowsFor.bind ((follows_switchesOnTheWay hcapability hsending hchecked).mono
    fun past₁ r hr => ?_)
  rcases hr with ⟨rfl, hsending, hchecked⟩ | ⟨hdeclares, hne, hkind⟩
  · refine Program.FollowsFor.ite (fun hon => absurd rfl hon) fun _ => ?_
    refine followsFor_ask_only ⟨fun _ => hsending.unrefused, by rintro _ _ _ ⟨⟩,
      by rintro _ _ _ _ _ _ ⟨⟩, by rintro _ _ ⟨⟩⟩ fun x hx => ?_
    by_cases haway : ∃ e, x = .error e ∧ e.kind ∈ turnedAway
    · obtain ⟨e, rfl, hkind⟩ := haway
      refine .inr ⟨e, rfl, fun heq => ?_,
        hchecked.not_declares hcapability hsending hx ⟨e, rfl, hkind⟩⟩
      rw [heq] at hkind
      exact absurd hkind (by decide)
    · have hands : HandsOver row.id ⟨.write .write row.id grant
          { tenantId := site.tenant, runId := toString row.runId, stepId := row.stepId
            capabilityId := capability.id, parameters }, x⟩ :=
        ⟨grant, _, x, rfl, fun e he hkind => haway ⟨e, he, hkind⟩⟩
      have hmem := List.mem_append_right past₁ (List.mem_singleton.mpr rfl :
        (⟨.write .write row.id grant
          { tenantId := site.tenant, runId := toString row.runId, stepId := row.stepId
            capabilityId := capability.id, parameters }, x⟩ : Calls.Done) ∈ [_])
      refine .inl ⟨⟨hsending.unrefused.snoc fun hturned => haway hturned.1, ?_,
        .inl ⟨_, hmem, hands⟩⟩, _, hmem, hands⟩
      exact fun hunderway => hunderway.2 _ hmem trivial
  · cases r with
    | error e => exact .inr ⟨e, rfl, hkind e rfl, hdeclares⟩
    | ok on =>
      refine Program.FollowsFor.ite (fun _ => .inr ⟨_, rfl, ?_, hdeclares⟩) fun hon => ?_
      · show "WriteNotAuthorized" ≠ "OutcomeUnknown"
        decide
      · exact absurd (congrArg Except.ok (not_not.mp hon)) hne

theorem follows_send (hcapability : site.registry.capability capability.id = some capability)
    (row : ActionRow) (grant : Grant) (h : Sending past) :
    (send site call capability row grant).FollowsFor (Expected site) Allowed past
      fun _ _ => True := by
  refine Program.FollowsFor.bind (Program.FollowsFor.attempt
    ((follows_invokeWrite hcapability row call.step.parameters grant h).mono fun past₁ r hr => ?_))
  cases r with
  | ok a =>
    obtain ⟨hready, hands⟩ : Ready past₁ row.id ∧ ∃ d ∈ past₁, HandsOver row.id d := by
      rcases hr with hr | ⟨e, ⟨⟩, -⟩
      exact hr
    refine Program.FollowsFor.ite (fun _ => ?_) fun _ => follows_rollBack _ _ fun _ => hready
    refine followsFor_ask ⟨fun ht => ht.elim, by rintro _ _ _ ⟨⟩, ?_, by rintro _ _ ⟨⟩⟩
      (fun _ _ => trivial) fun moved hmoved => ?_
    · rintro id fromStatuses event payload values wake ⟨⟩
      exact hands
    cases moved with
    | none => trivial
    | some row' =>
      have hid : row'.id = row.id := (hmoved.honest _ _ row' rfl rfl).about _ rfl
      have hready' : ∀ {o : Op} (x : Except Exn o.Val), o.Inert → Ready (past₁ ++ [⟨o, x⟩]) row'.id := by
        intro o x ho
        rw [hid]
        exact hready.inert ho x
      have hnote : ∀ past, Ready past row'.id → ∀ text,
          (noteChange row' text).FollowsFor (Expected site) Allowed past
            fun past' _ => Ready past' row'.id := by
        intro past hready text
        refine (closing_noteChange row' text).followsFor (fun past _ _ ho => Op.Closes.allowed ho past)
          (fun past d hK ho _ => ?_) hready
        refine hK.inert (o := d.op) ?_ d.answer
        obtain ⟨o, x⟩ := d
        cases o with
        | db c => cases c <;> trivial
        | _ => trivial
      refine Program.FollowsFor.bind ((hnote _ (hready' _ (by exact trivial)) _).mono fun past₂ r hr => ?_)
      cases r with
      | error e => trivial
      | ok _ => exact follows_verifyAndFinish _ _ hr.unrefused fun _ => hr
  | error e =>
    refine Program.FollowsFor.ite (fun hkind => ?_) fun _ => follows_rollBack _ _ fun hdeclares => ?_
    · rcases hr with ⟨hready, -⟩ | ⟨e', heq, hne, -⟩
      · exact follows_verifyAndFinish _ _ hready.unrefused fun hlost => nomatch hlost
      · cases heq
        exact absurd hkind hne
    · rcases hr with ⟨hready, -⟩ | ⟨-, -, -, hnone⟩
      · exact hready
      · exact absurd hdeclares hnone

/-- A stage before the write that lets the attempt go on has left everything untouched. -/
abbrev Passes (r : Except Exn (Option Stop)) (past : List Calls.Done) : Prop :=
  r = .ok none → Untouched past

theorem follows_preCheckStop (checks : List PreCheck) (h : Untouched past) :
    (preCheckStop site call checks).FollowsFor (Expected site) Allowed past
      fun past' r => Passes r past' := by
  induction checks generalizing past with
  | nil => exact fun _ => h
  | cons check checks ih =>
    refine followsFor_ask ⟨fun _ => h.unrefused, by rintro _ _ _ ⟨⟩, by rintro _ _ _ _ _ _ ⟨⟩,
      by rintro _ _ ⟨⟩⟩ (fun _ _ => nofun) fun a _ => ?_
    refine Program.FollowsFor.bind (Program.FollowsFor.ofExcept ?_)
    cases passed site call check a with
    | error e => exact nofun
    | ok yes => exact Program.FollowsFor.ite (fun _ => ih (h.inert (by exact trivial) _)) fun _ => nofun

theorem follows_dryRunStop (h : Untouched past) :
    (dryRunStop call capability).FollowsFor (Expected site) Allowed past
      fun past' r => Passes r past' := by
  refine Program.FollowsFor.ite (fun _ => ?_) fun _ _ => h
  refine Program.FollowsFor.bind (Program.FollowsFor.attempt ?_)
  refine followsFor_ask (allowed_of_not_target (by exact fun ht => ht) (by rintro _ _ _ _ _ _ ⟨⟩)
    (by rintro _ _ ⟨⟩)) (fun e _ => nofun) fun _ _ => ?_
  have hchecked := h.snoc (d := ⟨.checkCall capability.id call.step.parameters, .ok ()⟩)
    ⟨fun h => h, fun h => h⟩ (by rintro ⟨e, ⟨⟩⟩)
  refine followsFor_ask_only ⟨fun _ => hchecked.unrefused, by rintro _ _ _ ⟨⟩,
    by rintro _ _ _ _ _ _ ⟨⟩, by rintro _ _ ⟨⟩⟩ fun x _ => ?_
  cases x with
  | error e => exact nofun
  | ok a =>
    intro hpass
    refine hchecked.snoc ⟨fun h => h, fun h => h⟩ fun haway => ?_
    have hfailed : a.success = false := haway a rfl
    simp [hfailed] at hpass

theorem follows_stages (row : ActionRow) (h : Untouched past) :
    (firstStop (stages site call capability row)).FollowsFor (Expected site) Allowed past
      fun past' r => Passes r past' := by
  have hfirst : ∀ (list : List (Prog (Option Stop))), (∀ stage ∈ list, ∀ past, Untouched past →
      stage.FollowsFor (Expected site) Allowed past fun past' r => Passes r past') →
      ∀ past, Untouched past → (firstStop list).FollowsFor (Expected site) Allowed past
        fun past' r => Passes r past' := by
    intro list
    induction list with
    | nil => exact fun _ past h _ => h
    | cons stage list ih =>
      intro hlist past h
      refine Program.FollowsFor.bind ((hlist stage (List.mem_cons_self ..) past h).mono
        fun past' r hr => ?_)
      match r with
      | .error e => exact nofun
      | .ok (some stop) => exact nofun
      | .ok none => exact ih (fun s hs => hlist s (List.mem_cons_of_mem _ hs)) past' (hr rfl)
  refine hfirst _ (fun stage hstage past h => ?_) past h
  rcases List.mem_cons.mp hstage with rfl | hstage
  · refine Program.FollowsFor.bind ((follows_killSwitches Untouched.switch h).mono
      fun past' r hr => ?_)
    cases r with
    | error e => exact nofun
    | ok on => exact fun _ => hr
  rcases List.mem_cons.mp hstage with rfl | hstage
  · refine followsFor_ask (allowed_of_not_target (by exact fun ht => ht)
      (by rintro _ _ _ _ _ _ ⟨⟩) (by rintro _ _ ⟨⟩)) (fun _ _ => nofun) fun now _ _ => ?_
    exact h.inert (o := .utcnow) trivial (.ok now)
  rcases List.mem_cons.mp hstage with rfl | hstage
  · exact follows_preCheckStop capability.preChecks h
  · cases List.mem_singleton.mp hstage
    exact follows_dryRunStop h

theorem follows_authorise (row : ActionRow) (h : Untouched past) :
    (authorise row).FollowsFor (Expected site) Allowed past
      fun past' r => ∀ row' grant, r = .ok (.ok (row', grant)) → Sending past' := by
  refine followsFor_ask (allowed_of_not_target (by exact fun ht => ht) (by rintro _ _ _ _ _ _ ⟨⟩)
    (by rintro _ _ ⟨⟩)) (by rintro _ _ _ _ ⟨⟩) fun file _ => ?_
  have hread := h.switch past ⟨.localSwitch, .ok file⟩ trivial
  refine followsFor_ask (allowed_of_not_target (by exact fun ht => ht) (by rintro _ _ _ _ _ _ ⟨⟩)
    (by rintro _ _ ⟨⟩)) (by rintro _ _ _ _ ⟨⟩) fun authorised _ => ?_
  cases authorised with
  | error why => rintro _ _ ⟨⟩
  | ok executing =>
    have hbegun := hread.snoc (d := ⟨.db (.authoriseExecution row.id file), .ok (.ok executing)⟩)
      ⟨fun h => h, fun h => h⟩ (by rintro ⟨why, ⟨⟩⟩)
    refine followsFor_ask (allowed_of_not_target (by exact fun ht => ht)
      (by rintro _ _ _ _ _ _ ⟨⟩) (by rintro _ _ ⟨⟩)) (by rintro _ _ _ _ ⟨⟩) fun grant _ => ?_
    rintro row' grant' -
    refine ⟨hbegun.unrefused.snoc fun hturned => hturned.1,
      ⟨_, List.mem_append_right _ (List.mem_singleton.mpr rfl), trivial⟩, fun d hd => ?_⟩
    rcases List.mem_append.mp hd with hd | hd
    · exact (hbegun.still d hd).2
    · cases List.mem_singleton.mp hd
      exact fun h => h

theorem follows_act (hcapability : site.registry.capability capability.id = some capability)
    (row : ActionRow) (h : Untouched past) :
    (act site call capability row).FollowsFor (Expected site) Allowed past fun _ _ => True := by
  refine Program.FollowsFor.bind (((follows_stages row h).and_always
    (early_stages call capability row)).mono fun past₁ r hr => ?_)
  match r with
  | .error e => trivial
  | .ok (some stop) => exact follows_closing (closing_stopped row (hr.2 stop rfl) (by decide))
  | .ok none =>
    refine Program.FollowsFor.bind ((follows_authorise row (hr.1 rfl)).mono fun past₂ r hr => ?_)
    match r with
    | .error e => trivial
    | .ok (.error why) => exact follows_closing (closing_stopped row (early_notAuthorised why) (by decide))
    | .ok (.ok (row', grant)) => exact follows_send hcapability row' grant (hr row' grant rfl)

theorem follows_proceed (hcapability : site.registry.capability capability.id = some capability)
    (row : ActionRow) (h : Untouched past) (hreported : Reported past row) :
    (proceed site call capability row).FollowsFor (Expected site) Allowed past
      fun _ _ => True := by
  have hact : (act site call capability row).FollowsFor (Expected site) Allowed past
      fun _ _ => True := follows_act hcapability row h
  have hfinal : (Program.ofExcept (finalResult site call.step row) : Prog ActionAnswer).FollowsFor
      (Expected site) Allowed past fun _ _ => True := Program.FollowsFor.ofExcept trivial
  unfold proceed
  cases hs : row.status with
  | approved => exact hact
  | allowed => exact hact
  | executed =>
    exact follows_verifyAndFinish _ _ h.unrefused fun _ =>
      ⟨h.unrefused, h.idle, .inr ⟨row, hreported, rfl, hs⟩⟩
  | executing => exact follows_verifyAndFinish _ _ h.unrefused fun hlost => nomatch hlost
  | rollingBack =>
    exact follows_closing (Program.Issues.bind (closing_finish row _ (by rintro ⟨⟩)) fun _ =>
      Program.issues_ofExcept _)
  | _ => exact hfinal

/-- The operations by which an attempt comes by its row. -/
theorem early_untouched : Early site call capability (Expected site) Allowed Untouched where
  ok past o _ ho := by
    refine allowed_of_not_target (fun ht => ?_) ?_ ?_
    · cases o <;> first | exact ho.elim | exact ht.elim
    · rintro id fromStatuses event payload values wake rfl
      rcases ho.1 with ⟨-, h | h⟩ | ⟨-, h⟩ <;> cases h
    · rintro d payload rfl
      obtain ⟨verdict, hs⟩ := ActionCall.Decides.status ho
      rw [hs]
      cases verdict <;> decide
  keep past d h ho _ := by
    obtain ⟨o, x⟩ := d
    by_cases hswitch : o.ReadsSwitch
    · exact h.switch past ⟨o, x⟩ hswitch
    · refine h.inert ?_ x
      cases o with
      | db c => cases c <;> trivial
      | localSwitch => exact absurd trivial hswitch
      | _ => trivial
  honest past d h := h.honest

/-- **An attempt** calls what is allowed. -/
theorem follows_perform (call : ActionCall) :
    (perform site call).FollowsFor (Expected site) Allowed [] fun _ _ => True := by
  refine followsFor_perform (F := Untouched) ⟨.nil, by simp⟩ (fun _ _ => early_untouched) ?_
  intro capability past row row' hcapability _ huntouched hhas hkept _
  have hid : capability.id = call.step.capability := by
    simpa using List.find?_some hcapability
  rw [← hid] at hcapability
  refine follows_proceed hcapability row' huntouched ?_
  rcases hkept.seen with rfl | hreported
  · exact hhas.reported
  · exact hreported

end ActionService

/-- The coroutines of the pipeline. -/
theorem pipeline_allowed {site : Site} {admits : ActionCall → Prop} {p : Prog Unit}
    (h : Pipeline site admits p) : p.FollowsFor (Expected site) Allowed [] fun _ _ => True := by
  cases h with
  | perform call h =>
    refine Program.FollowsFor.bind ((ActionService.follows_perform call).mono fun past r _ => ?_)
    cases r <;> trivial
  | sweep pollDue =>
    refine (Program.Issues.followsFor (P := Op.ofSweep) (K := fun _ => True) (fun past o _ ho => ?_)
      (fun _ _ _ _ _ => trivial) ?_ trivial)
    · refine allowed_of_not_target (fun ht => ?_) ?_ ?_
      · cases o <;> first | exact ho.elim | exact ht.elim
      · rintro id fromStatuses event payload values wake rfl
        rcases ho.2.1 with h | h <;> cases h
      · rintro d payload rfl
        exact ho.elim
    · exact Program.Issues.bind (ActionService.of_sweep (Program.issues_compositional _)
        (fun o h _ => issues_ask h) pollDue) fun _ => trivial
  | decide id answer =>
    refine followsFor_ask (allowed_of_not_target (by exact fun ht => ht)
      (by rintro _ _ _ _ _ _ ⟨⟩) (by rintro _ _ ⟨⟩)) (fun _ _ => trivial) fun expired _ => ?_
    cases expired <;> trivial
  | other o ho =>
    refine followsFor_ask ⟨fun _ => .nil, ?_, ?_, ?_⟩ (fun _ _ => trivial) fun _ _ => trivial
    · rintro id grant call rfl
      cases ho
    · rintro id fromStatuses event payload values wake rfl
      cases ho
    · rintro d payload rfl
      cases ho

/-! ## What is claimed -/

section
variable {site : Site} {admits : ActionCall → Prop}

/-- The event hands the write of the action over: the grant is accepted, and neither the
connector nor the dispatcher turns the call away. -/
def Site.Event.HandsOver (ev : site.Event) (id : Nat) : Prop :=
  ∃ grant call, ev.op = .write .write id grant call ∧
    grant.refusal site.sha (ev.before.issued.map (·.grant))
      ((ev.before.redeemed.filter (·.1 == (ev.choice : Choice).process)).map (·.2)) ev.time call =
        none ∧
    ∀ e, (ev.choice : Choice).written = .error e → e.kind ∉ turnedAway

/-- **A rollback is sent only for a write that was sent.** -/
structure SentOnly (tr : List (System.Event (site.pipeline admits))) : Prop where
  /-- Before each call of a rollback, the write of the action has been handed over. -/
  rollback : System.Each (fun pre ev => ∀ id grant call,
    ev.op = Op.write .rollback id grant call → ∃ e ∈ pre, (Site.event e).HandsOver id) tr
  /-- An attempt that has been turned away calls the target no more. -/
  ended : System.Each (fun pre ev => Op.AtTarget ev.op → Unrefused (System.own ev.thread pre)) tr

theorem Grant.refusal_kind {g : Grant} {sha : Json → String} {issued : List Grant}
    {redeemed : List String} {now : Nat} {call : WriteCall} {e : Exn}
    (h : g.refusal sha issued redeemed now call = some e) : e.kind = "WriteNotAuthorized" := by
  unfold Grant.refusal at h
  repeat' split at h
  all_goals
    cases h
    try rfl

/-- What its answer says of the call, the event says. -/
theorem HandsOver.event {ev : site.Event} (hev : ev.Happens) {id : Nat}
    (h : HandsOver id ⟨ev.op, ev.answer⟩) : ev.HandsOver id := by
  obtain ⟨t, o, ch, before, answer, after⟩ := ev
  obtain ⟨grant, call, x, heq, hnot⟩ := h
  cases heq
  obtain ⟨v, s₁, heffect, hcases⟩ := Op.step_cases hev
  have hanswer : answer = v := by
    rcases hcases with ⟨hx, -⟩ | ⟨e, -, -, hfail⟩
    · exact hx
    · cases hfail
  subst hanswer
  have hgrants := heffect
  simp only [Op.effect] at hgrants
  refine ⟨grant, call, rfl, ?_, ?_⟩
  · cases hrefusal : grant.refusal site.sha ((before.later (ch : Choice).elapsed).issued.map (·.grant))
      (((before.later (ch : Choice).elapsed).redeemed.filter
        (·.1 == (ch : Choice).process)).map (·.2)) (before.later (ch : Choice).elapsed).now call with
    | none => exact hrefusal
    | some e =>
      rw [hrefusal] at hgrants
      cases hgrants
      refine absurd ?_ (hnot e rfl)
      rw [Grant.refusal_kind hrefusal]
      decide
  · intro e he
    refine hnot e ?_
    split at hgrants
    · rename_i e' hrefusal
      cases hgrants
      exact absurd (by rw [Grant.refusal_kind hrefusal]; decide) (hnot e' rfl)
    · split at hgrants
      · cases hgrants
        exact he
      · cases hgrants

/-- A row that is `executed` had its write handed over. -/
def ExecutedSent (s : Estate) (tr : List (System.Event (site.pipeline admits))) : Prop :=
  ∀ id r, s.db.actions.get? id = some r → r.status = .executed →
    ∃ e ∈ tr, HandsOver id ⟨e.op, e.answer⟩

theorem executedSent_step {tr : List (System.Event (site.pipeline admits))}
    {ev : System.Event (site.pipeline admits)} (hev : (Site.event ev).Happens)
    (hallowed : Allowed (System.own ev.thread tr) ev.op) (h : ExecutedSent ev.before tr) :
    ExecutedSent ev.after (tr ++ [ev]) := by
  intro id r' hr' hs
  have hearlier : (∃ e ∈ tr, HandsOver id ⟨e.op, e.answer⟩) →
      ∃ e ∈ tr ++ [ev], HandsOver id ⟨e.op, e.answer⟩ := by
    rintro ⟨e, he, hands⟩
    exact ⟨e, List.mem_append_left _ he, hands⟩
  cases hr : ev.before.db.actions.get? id with
  | none =>
    obtain ⟨d, payload, v, incidentId, hc, hrow⟩ := hev.row_added hr hr'
    rw [hrow] at hs
    exact absurd hs (hallowed.decision d payload hc.1)
  | some r =>
    rcases hev.row_moves hr hr' with rfl | ⟨c, v, hc, hmove⟩
    · exact hearlier (h id r' hr hs)
    have hid := ActionTable.get?_id hr
    cases hmove with
    | same => exact hearlier (h id r' hr hs)
    | noted event payload values => exact hearlier (h id r hr hs)
    | moved fromStatuses toStatus event payload values wake hfrom =>
      obtain rfl : toStatus = .executed := hs
      obtain ⟨d, hd, hands⟩ := hallowed.executed r.id _ _ _ _ _ hc.1
      obtain ⟨o, x⟩ := d
      obtain ⟨ch, before, after, hmem⟩ := System.mem_own hd
      refine hearlier ⟨_, hmem, ?_⟩
      rw [← hid]
      exact hands
    | begun localSwitch hs' => cases hs
    | answered a hok htime =>
      have hanswered : (if a.approve then ActionStatus.approved else .rejected) = .executed := hs
      split at hanswered <;> cases hanswered
    | expired a hok => cases hs

/-- **A rollback is sent only for a write that was sent**, in every run in which no write with a
declared rollback is turned away. -/
theorem rollback_after_write (site : Site) (admits : ActionCall → Prop) (s : Estate) (hs : s.Fresh)
    (d : Config Calls Exn (Estate × List (System.Event (site.pipeline admits))))
    (hd : (site.pipeline admits).recorded.Reaches
      (fun t o ch s => ∀ x s', Op.step site t o ch s.1 = some (x, s') →
        ¬ Spoiled site (System.own t s.2) ⟨o, x⟩ ∧ Plainly ⟨o, x⟩) (Config.idle (s, [])) d) :
    SentOnly d.shared.2 := by
  have heach := System.recorded_each hd
  have hevent : ∀ ev ∈ d.shared.2, (Site.event ev).Happens := by
    intro ev hev
    obtain ⟨pre, post, hsplit⟩ := List.append_of_mem hev
    exact (heach pre ev post hsplit).2
  have hexpected : System.Each (fun pre ev => Expected site (System.own ev.thread pre)
      ⟨ev.op, ev.answer⟩) d.shared.2 := by
    intro pre ev post hsplit
    obtain ⟨hcond, hrun⟩ := heach pre ev post hsplit
    obtain ⟨hwhole, hplainly⟩ := hcond _ _ hrun
    exact ⟨honest_event hrun _, hwhole, hplainly⟩
  have hallowed := System.recorded_followsFor (fun _ hp => pipeline_allowed hp) hd hexpected
  have hsent := System.recorded_induction (I := fun s tr => ExecutedSent s tr) hd
    (fun id r hr => by
      rw [ActionTable.get?, hs.actions] at hr
      cases hr)
    fun pre ev post hsplit h => executedSent_step (hevent ev (by simp [hsplit]))
      (hallowed pre ev post hsplit) h
  refine ⟨fun pre ev post hsplit id grant call hop => ?_, fun pre ev post hsplit =>
    (hallowed pre ev post hsplit).target⟩
  have hpre : ∀ e ∈ pre, e ∈ d.shared.2 := by
    intro e he
    rw [hsplit]
    exact List.mem_append_left _ he
  rcases (hallowed pre ev post hsplit).rollback id grant call hop with ⟨x, hx, hands⟩ | ⟨r, hr, hid, hs'⟩
  · obtain ⟨o, x⟩ := x
    obtain ⟨ch, before, after, hmem⟩ := System.mem_own hx
    exact ⟨_, hmem, HandsOver.event (hevent _ (hpre _ hmem)) hands⟩
  · -- The row was seen executed, so an earlier attempt had handed its write over.
    obtain ⟨e, he, hrow⟩ := hr.event fun e he => hevent e (hpre e he)
    obtain ⟨p, q, hsplit'⟩ := List.append_of_mem he
    have hwhole : d.shared.2 = p ++ e :: (q ++ ev :: post) := by
      rw [hsplit, hsplit', List.append_assoc, List.cons_append]
    obtain ⟨w, hw, hands⟩ := executedSent_step (hevent e (hpre e he)) (hallowed _ _ _ hwhole)
      (hsent.2 _ _ _ hwhole) r.id r hrow hs'
    have hmem : w ∈ pre := by
      rw [hsplit']
      rcases List.mem_append.mp hw with hw | hw
      · exact List.mem_append_left _ hw
      · exact List.mem_append_right _ (by simp [List.mem_singleton.mp hw])
    rw [hid] at hands
    exact ⟨w, hmem, HandsOver.event (hevent w (hpre w hmem)) hands⟩

end

/-! ## A write that can be undone -/

/-- Holding a job, which is undone by releasing it. -/
def holdCapability : Capability where
  id := "JOB_HOLD"
  kind := .write
  tier := some .t1
  properties := ["job"]
  targetParameters := ["job"]
  verify := some { capability := "JOB_STATUS", assertion := "result.held" }
  rollback := "JOB_RELEASE"

/-- The way back. -/
def releaseCapability : Capability where
  id := "JOB_RELEASE"
  kind := .write
  tier := some .t1
  properties := ["job"]
  targetParameters := ["job"]
  verify := some { capability := "JOB_STATUS", assertion := "result.running" }
  rollback := "none: the job runs"

/-- A deployment whose connector holds and releases jobs. -/
def holdSite : Site :=
  { sampleSite with
    withActions := rfl
    registry :=
      { capabilities := [holdCapability, releaseCapability]
        linted := by
          intro c hc _
          rcases List.mem_cons.mp hc with rfl | hc
          · exact ⟨_, rfl, by decide, by decide⟩
          · cases List.mem_singleton.mp hc
            exact ⟨_, rfl, by decide, by decide⟩ } }

/-- The attempt at the step that holds the job. -/
def holdCall : ActionCall :=
  { sampleCall with
    step :=
      { stepId := "hold", stepType := "ACTION", capability := "JOB_HOLD"
        parameters := .obj [("job", .str "billing")] } }

/-- The tenant lets the agent hold the job by itself. -/
def holdEstate : Estate :=
  { sampleEstate with
    db :=
      { sampleEstate.db with
        policy :=
          { autonomy := .automatic
            rules :=
              { sopAutonomy := [("restart-job", .automatic, .str "hash")]
                automatic := [{ capability := "JOB_HOLD", targets := ["billing"] }] } } } }

theorem holdEstate_fresh : holdEstate.Fresh := ⟨rfl, rfl, rfl⟩

/-- The attempt as a coroutine. -/
def holdPerform : Prog Unit := (ActionService.perform holdSite holdCall).bind fun _ => .ret ()

/-- The pipeline of that deployment. -/
abbrev holdPipeline : System Calls Exn Estate := holdSite.pipeline fun _ => True

theorem holdPerform_starts (ops : List (Nat × Choice)) :
    holdPipeline.recorded.Starts (.start holdPerform :: ops.map fun x => .op x.1 x.2) :=
  .start (Pipeline.perform holdCall trivial) .each

/-- The purposes of the writes that were called. -/
def writesCalled (tr : List (System.Event holdPipeline)) : List Purpose :=
  tr.filterMap fun ev => match ev.op with
    | Op.write purpose _ _ _ => some purpose
    | _ => none

/-- A check of the condition, for steps that go well. -/
def Op.wentWell : (o : Op) → Except Exn o.Val → Bool
  | .db (.authoriseExecution ..), .ok (.ok _) => true
  | .db .switchesOn, .ok [] => true
  | .localSwitch, .ok false => true
  | .db (.authoriseExecution ..), _ | .db .switchesOn, _ | .localSwitch, _ | .dryRun .., _ => false
  | _, .ok _ => true
  | _, .error _ => false

theorem Op.wentWell_spec {o : Op} {x : Except Exn o.Val} (h : o.wentWell x = true) :
    ¬ o.TurnsAway x ∧ Plainly ⟨o, x⟩ := by
  constructor
  · intro haway
    cases o with
    | db c =>
      cases c with
      | authoriseExecution id file =>
        obtain ⟨why, rfl⟩ := haway
        cases h
      | switchesOn =>
        match x with
        | .error e => cases h
        | .ok [] => exact haway [] rfl rfl
        | .ok (_ :: _) => cases h
      | _ => exact haway.elim
    | localSwitch =>
      match x with
      | .error e => cases h
      | .ok true => cases h
      | .ok false => cases haway false rfl
    | dryRun capabilityId parameters => cases x <;> cases h
    | checkCall capabilityId parameters =>
      obtain ⟨e, rfl⟩ := haway
      cases h
    | write purpose action grant call =>
      obtain ⟨e, rfl, -⟩ := haway
      cases h
    | _ => exact haway.elim
  · intro hway e he
    have hx : x = .error e := he
    subst hx
    cases o with
    | db c => cases c <;> cases h
    | _ => cases h

/-- The write is answered with a failure, which is what a rollback is for. -/
def failedWrite : List (Nat × Choice) :=
  List.replicate 19 (0, smooth) ++
    (0, lateAnswer) :: List.replicate 9 (0, { smooth with nonce := "m" })

/-- An attempt whose write was answered with a failure, and which has undone it. -/
theorem rollback_after_write_sample :
    ∃ d : Config Calls Exn (Estate × List (System.Event holdPipeline)),
      d.shared.1.statuses = [.rolledBack] ∧ writesCalled d.shared.2 = [.write, .rollback] ∧
        SentOnly d.shared.2 := by
  have hplay : ((holdPipeline.recorded.playIf
      (fun t o ch s => (Op.step holdSite t o ch s.1).all fun r => o.wentWell r.1)
      (Config.idle (holdEstate, []))
      (.start holdPerform :: failedWrite.map fun x => .op x.1 x.2)).map fun d =>
        (d.shared.1.statuses, writesCalled d.shared.2)) =
      some ([.rolledBack], [.write, .rollback]) := by
    decide +kernel
  obtain ⟨d, hd, hends⟩ := Option.map_eq_some_iff.mp hplay
  obtain ⟨hstatuses, hwrites⟩ := Prod.mk.inj hends
  refine ⟨d, hstatuses, hwrites, rollback_after_write holdSite (fun _ => True) holdEstate
    holdEstate_fresh d (System.playIf_reaches _ (fun t (o : Op) ch s hok => ?_)
      (holdPerform_starts failedWrite) hd)⟩
  intro x s' hstep
  rw [hstep] at hok
  obtain ⟨haway, hplainly⟩ := Op.wentWell_spec hok
  exact ⟨fun hspoiled => haway hspoiled.2.1, hplainly⟩

/-- The connection's allow list was edited after the decision: the call is refused. -/
def refusedCall : Choice :=
  { smooth with fault := some (.other "Refused" "parameter 'job' is not on allow list 'jobs'") }

/-- The write is refused when it is called. -/
def refusedWrite : List (Nat × Choice) :=
  List.replicate 16 (0, smooth) ++
    (0, refusedCall) :: List.replicate 9 (0, { smooth with nonce := "m" })

/-- **A rollback is sent for a write that was never sent.**  The registry refuses the write, and
the attempt answers with the rollback. -/
theorem rollback_unsent : ¬ ∀ (site : Site) (admits : ActionCall → Prop) (s : Estate), s.Fresh →
    ∀ d : Config Calls Exn (Estate × List (System.Event (site.pipeline admits))),
      (site.pipeline admits).recorded.Reaches (System.anyStep _) (Config.idle (s, [])) d →
        SentOnly d.shared.2 := by
  intro hall
  have hplay : ((holdPipeline.recorded.play (Config.idle (holdEstate, []))
      (.start holdPerform :: refusedWrite.map fun x => .op x.1 x.2)).map fun d =>
        (d.shared.1.statuses, writesCalled d.shared.2)) = some ([.rolledBack], [.rollback]) := by
    decide +kernel
  obtain ⟨d, hd, hends⟩ := Option.map_eq_some_iff.mp hplay
  obtain ⟨-, hwrites⟩ := Prod.mk.inj hends
  have hsent := hall holdSite (fun _ => True) holdEstate holdEstate_fresh d
    (System.play_reaches _ (holdPerform_starts refusedWrite) hd)
  have hcalled : ∀ purpose, (∃ ev ∈ d.shared.2, ∃ id grant call,
      ev.op = Op.write purpose id grant call) ↔ purpose = .rollback := by
    intro purpose
    rw [← List.mem_singleton, ← hwrites, writesCalled, List.mem_filterMap]
    constructor
    · rintro ⟨ev, hev, id, grant, call, hop⟩
      exact ⟨ev, hev, by rw [hop]⟩
    · rintro ⟨ev, hev, hop⟩
      split at hop
      · rename_i p id grant call heq
        cases hop
        exact ⟨ev, hev, id, grant, call, heq⟩
      · cases hop
  obtain ⟨ev, hev, id, grant, call, hop⟩ := (hcalled .rollback).mpr rfl
  obtain ⟨pre, post, hsplit⟩ := List.append_of_mem hev
  obtain ⟨e, he, grant', call', hop', -⟩ := hsent.rollback pre ev post hsplit id grant call hop
  have hwrote := (hcalled .write).mp ⟨e, by rw [hsplit]; exact List.mem_append_left _ he, id, grant',
    call', hop'⟩
  cases hwrote

end L1Agent
