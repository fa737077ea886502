import L1Agent.Actions.Attempted

/-! # Verification and rollback are about the recorded action

A step may render to other parameters when it is attempted again.  The attempt then ends the
row if nothing has been authorised for it.  If another attempt's write has been authorised
in the meantime, it goes on with that attempt's row and its own parameters: it verifies one
action by the target of another (`own_target_missed`).  That, and a decision that lost a race for
the row, are the only ways (`own_target`).

`own_target` is about every move of a row to `verified` or `rolled_back` and every rollback that is
sent.  The attempt's own order is `OnTarget` (`onTarget_perform`); what the run adds is that the row
an attempt goes on with is for its own action, or nothing more is done for it
(`Obtained.own_or_settled`).
-/
namespace L1Agent
open Interleaving

/-! ## The condition -/

/-- The hash of the action that a call is for. -/
def ActionCall.wanted (site : Site) (call : ActionCall) : String :=
  actionHash site call.incident call.sop call.step.capability call.step.parameters

/-- The hash tells the actions of the calls apart. -/
def TellsApart (site : Site) (admits : ActionCall → Prop) : Prop :=
  ∀ call call', admits call → admits call' → call.wanted site = call'.wanted site →
    call.step.capability = call'.step.capability ∧
      Json.canonical call.step.parameters = Json.canonical call'.step.parameters

/-- Nothing is read or undone for the row any more. -/
def ActionRow.Settled (r : ActionRow) : Prop := r.status.isFinal = true ∨ r.status = .rollingBack

/-- **The attempt is given a row that may be another action's**, and that is still to be acted on
or verified. -/
inductive Mistaken : List Calls.Done → Calls.Done → Prop
  /-- The row is for another action, and came to its write before it could be ended. -/
  | overtaken (pre : List Calls.Done) (id : Nat) (event : String) (payload : List (String × Json))
      (values : Values) (wake : Bool) (row : ActionRow) (h : ¬ row.Settled) :
      Mistaken (pre ++ [⟨.db (.transition id ActionService.undone .invalid event payload values
        wake), .ok none⟩]) ⟨.db (.get id), .ok row⟩
  /-- The attempt's own decision came second, to one about another action. -/
  | raced (pre : List Calls.Done) (d : Decision) (payload : List (String × Json)) (e : Exn)
      (runId : Nat) (stepId : String) (row : ActionRow) (hhash : row.actionHash ≠ d.actionHash)
      (h : ¬ row.Settled) :
      Mistaken (pre ++ [⟨.db (.recordDecision d payload), .error e⟩])
        ⟨.db (.find runId stepId), .ok (some row)⟩

/-- The answers that the attempts are taken to get. -/
structure Sure (past : List Calls.Done) (d : Calls.Done) : Prop where
  honest : Honest past d
  sure : ¬ Mistaken past d

/-! ## What an attempt calls -/

/-- The action is known to be the one with this hash. -/
def HasHash (hash : String) (id : Nat) (past : List Calls.Done) : Prop :=
  ∃ r, Reported past r ∧ r.id = id ∧ r.actionHash = hash

theorem hasHash_growing (hash : String) (id : Nat) : Program.Growing (HasHash hash id) := by
  rintro past d ⟨r, hr, h⟩
  exact ⟨r, hr.snoc d, h⟩

/-- The read is a verification of the call's own action. -/
def Verifies (site : Site) (admits : ActionCall → Prop) (name : String) (parameters : Json)
    (l : Looking) (past : List Calls.Done) : Prop :=
  ∃ call capability spec, admits call ∧
    site.registry.capability call.step.capability = some capability ∧
      capability.verify = some spec ∧ name = spec.capability ∧
        parameters = ActionService.readParameters site call.step spec.capability spec.parameters ∧
          l.parameters = call.step.parameters ∧ HasHash (call.wanted site) l.action past

/-- The last operation is a verification that shows what the action was for. -/
def Shown (site : Site) (admits : ActionCall → Prop) (id : Nat) (past : List Calls.Done) : Prop :=
  ∃ pre name parameters stepId attempt l a,
    past = pre ++ [(⟨.callAdapter name parameters stepId attempt (some l), .ok a⟩ : Calls.Done)] ∧
      Deed.Shows site id (.looked l a) ∧ Verifies site admits name parameters l pre

/-- The last operation is a rollback of the action that went well. -/
def Reversed (id : Nat) (past : List Calls.Done) : Prop :=
  ∃ pre grant w a, past = pre ++ [(⟨.write .rollback id grant w, .ok a⟩ : Calls.Done)] ∧
    a.success = true

/-- **What an attempt may call** after what it has done. -/
structure OnTarget (site : Site) (admits : ActionCall → Prop) (past : List Calls.Done) (o : Op) :
    Prop where
  rollback : ∀ id grant w, o = .write .rollback id grant w →
    ∃ call capability, admits call ∧
      site.registry.capability call.step.capability = some capability ∧
        w.capabilityId = capability.rollback ∧
          w.parameters = ActionService.readParameters site call.step capability.rollback [] ∧
            HasHash (call.wanted site) id past
  verified : ∀ id fromStatuses event payload values wake,
    o = .db (.transition id fromStatuses .verified event payload values wake) →
      Shown site admits id past
  rolledBack : ∀ id fromStatuses event payload values wake,
    o = .db (.transition id fromStatuses .rolledBack event payload values wake) → Reversed id past
  decision : ∀ d payload, o = .db (.recordDecision d payload) →
    ∃ call, admits call ∧ d.actionHash = call.wanted site ∧
      d.capabilityId = call.step.capability ∧ d.parameters = call.step.parameters

/-- The operation is none of those. -/
def Op.Aside : Op → Prop
  | .write purpose .. => purpose = .write
  | .db c => match c with
    | .transition _ _ toStatus .. => toStatus ≠ .verified ∧ toStatus ≠ .rolledBack
    | .recordDecision .. => False
    | _ => True
  | _ => True

section
variable {site : Site} {admits : ActionCall → Prop} {past : List Calls.Done}

theorem Op.Aside.onTarget {o : Op} (h : o.Aside) (past : List Calls.Done) :
    OnTarget site admits past o where
  rollback := by
    rintro id grant w rfl
    cases h
  verified := by
    rintro id fromStatuses event payload values wake rfl
    exact absurd rfl h.1
  rolledBack := by
    rintro id fromStatuses event payload values wake rfl
    exact absurd rfl h.2
  decision := by
    rintro d payload rfl
    exact h.elim

/-- **The row that an attempt goes on with** is for its own action, or nothing more is done for
it. -/
theorem Obtained.own_or_settled {call : ActionCall} {capability : Capability} {row : ActionRow}
    (hid : capability.id = call.step.capability) (hgiven : Program.Given Sure past)
    (h : Obtained site call capability past row) :
    row.actionHash = call.wanted site ∨ row.Settled := by
  rw [ActionCall.wanted, ← hid]
  cases h with
  | found h => exact h.imp_right .inl
  | ended h =>
    refine .inr (.inl ?_)
    rw [h]
    rfl
  | overtaken row₀ id event payload values wake pre post hreported hrow hpast =>
    have hsure := hgiven (pre ++ [⟨.db (.transition id ActionService.undone .invalid event payload
      values wake), .ok none⟩]) ⟨.db (.get id), .ok row⟩ post (by simp [hpast])
    by_cases hsettled : row.Settled
    · exact .inr hsettled
    · exact absurd (.overtaken pre id event payload values wake row hsettled) hsure.sure
  | recorded d payload hd hmem =>
    obtain ⟨pre, post, hpast⟩ := List.append_of_mem hmem
    have hsure := hgiven pre ⟨.db (.recordDecision d payload), .ok row⟩ post hpast
    have hhash := (hsure.honest _ _ row rfl rfl).recorded d payload rfl
    exact .inl (hhash.trans hd.hash)
  | raced d payload e runId stepId hd pre post hpast =>
    have hsure := hgiven (pre ++ [⟨.db (.recordDecision d payload), .error e⟩])
      ⟨.db (.find runId stepId), .ok (some row)⟩ post (by simp [hpast])
    by_cases hhash : row.actionHash = d.actionHash
    · exact .inl (hhash.trans hd.hash)
    by_cases hsettled : row.Settled
    · exact .inr hsettled
    · exact absurd (.raced pre d payload e runId stepId row hhash hsettled) hsure.sure

end

namespace ActionService
variable {site : Site} {admits : ActionCall → Prop} {call : ActionCall} {capability : Capability}
  {past : List Calls.Done}

/-- Operations that are none of those the claim is about keep what is known. -/
theorem onTarget_aside {α : Type} {p : Prog α} {K : List Calls.Done → Prop} (hp : p.Issues Op.Aside)
    (hK : Program.Growing K) (h : K past) :
    p.FollowsFor Sure (OnTarget site admits) past fun past' _ => K past' :=
  hp.followsFor (fun past _ _ ho => Op.Aside.onTarget ho past) (fun past d hd _ _ => hK past d hd) h

/-- The end of an attempt, whatever came before. -/
theorem onTarget_end {α : Type} {p : Prog α} (hp : p.Issues Op.Aside) :
    p.FollowsFor Sure (OnTarget site admits) past fun _ _ => True :=
  onTarget_aside hp growing_true trivial

/-- The operations by which an action is closed, in a status that needs no evidence. -/
theorem aside_of_closing {α : Type} {p : Prog α}
    (hp : p.Issues (Op.Closing fun st => st ≠ .verified ∧ st ≠ .rolledBack)) :
    p.Issues Op.Aside := by
  refine hp.mono fun o ho => ?_
  cases o with
  | db c => cases c <;> first | exact ho | exact ho.elim
  | noteChange | closeChange => trivial
  | _ => exact ho.elim

theorem aside_killSwitches : killSwitches.Issues Op.Aside :=
  Program.Issues.bind (issues_ask trivial) fun _ =>
    Program.Issues.bind (issues_ask trivial) fun _ => trivial

/-- An action is moved to a status for which there is the evidence. -/
theorem onTarget_finish (row : ActionRow) (fromStatuses : List ActionStatus) (f : Finish)
    (hverified : f.toStatus = .verified → Shown site admits row.id past)
    (hrolledBack : f.toStatus = .rolledBack → Reversed row.id past) :
    (finish row fromStatuses f).FollowsFor Sure (OnTarget site admits) past fun _ _ => True := by
  refine followsFor_ask ⟨by rintro _ _ _ ⟨⟩, ?_, ?_, by rintro _ _ ⟨⟩⟩
    (fun _ _ => trivial) fun moved _ => ?_
  · intro id fromStatuses' event payload values wake heq
    injection heq with hcall
    injection hcall with hid _ hto
    rw [← hid]
    exact hverified hto
  · intro id fromStatuses' event payload values wake heq
    injection heq with hcall
    injection hcall with hid _ hto
    rw [← hid]
    exact hrolledBack hto
  · cases moved with
    | some row' => trivial
    | none => exact onTarget_end (issues_ask trivial)

/-- A rollback of the action that is known to be the call's. -/
theorem onTarget_invokeRollback (hadmits : admits call)
    (hcapability : site.registry.capability call.step.capability = some capability)
    (row : ActionRow) (grant : Grant) (h : HasHash (call.wanted site) row.id past) :
    (invokeWrite site .rollback row capability.rollback
      (readParameters site call.step capability.rollback []) grant).FollowsFor Sure
        (OnTarget site admits) past
          fun past' r => ∀ a, r = .ok a → a.success = true → Reversed row.id past' := by
  refine followsFor_ask (Op.Aside.onTarget (by exact trivial) past) (by rintro _ _ _ ⟨⟩) fun _ _ => ?_
  have hK := hasHash_growing (call.wanted site) row.id
  refine Program.FollowsFor.bind ((onTarget_aside aside_killSwitches hK (hK _ _ h)).mono
    fun past' r hr => ?_)
  cases r with
  | error e => rintro _ ⟨⟩
  | ok on =>
    refine Program.FollowsFor.ite (fun _ => by rintro _ ⟨⟩) fun _ => ?_
    refine followsFor_ask_only ⟨?_, by rintro _ _ _ _ _ _ ⟨⟩,
      by rintro _ _ _ _ _ _ ⟨⟩, by rintro _ _ ⟨⟩⟩ fun x _ => ?_
    · rintro id grant' w ⟨⟩
      exact ⟨call, capability, hadmits, hcapability, rfl, rfl, hr⟩
    · rintro a rfl hsuccess
      exact ⟨_, _, _, a, rfl, hsuccess⟩

theorem onTarget_undo (hadmits : admits call)
    (hcapability : site.registry.capability call.step.capability = some capability)
    (row : ActionRow) (h : HasHash (call.wanted site) row.id past) :
    (undo site row capability.rollback
      (readParameters site call.step capability.rollback [])).FollowsFor Sure (OnTarget site admits)
        past fun past' r => ∀ a, r = .ok a → a.success = true → Reversed row.id past' := by
  have hK := hasHash_growing (call.wanted site) row.id
  have hauthorise : (authoriseRollback site row capability.rollback
      (readParameters site call.step capability.rollback [])).Issues Op.Aside := by
    refine Program.Issues.bind aside_killSwitches fun on => ?_
    refine Program.Issues.ite (fun _ => trivial) fun _ => ?_
    refine Program.Issues.bind (issues_ask (by constructor <;> rintro ⟨⟩)) fun moved => ?_
    cases moved with
    | none => trivial
    | some _ => exact Program.Issues.bind (issues_ask trivial) fun _ => trivial
  refine Program.FollowsFor.bind ((onTarget_aside hauthorise hK h).mono fun past' r hr => ?_)
  match r with
  | .error e => rintro _ ⟨⟩
  | .ok none =>
    rintro _ ⟨⟩ hsuccess
    cases hsuccess
  | .ok (some grant) =>
    refine Program.FollowsFor.bind (Program.FollowsFor.attempt
      ((onTarget_invokeRollback hadmits hcapability row grant hr).mono fun past'' r hr => ?_))
    rintro a ha hsuccess
    cases r with
    | error e =>
      cases ha
      cases hsuccess
    | ok undone =>
      cases ha
      exact hr undone rfl hsuccess

/-- **A rollback** of the action that is known to be the call's. -/
theorem onTarget_rollBack (hadmits : admits call)
    (hcapability : site.registry.capability call.step.capability = some capability)
    (row : ActionRow) (why evidence : String) (h : HasHash (call.wanted site) row.id past) :
    (rollBack site call capability row why evidence).FollowsFor Sure (OnTarget site admits) past
      fun _ _ => True := by
  refine Program.FollowsFor.bind (Program.FollowsFor.mono (Q := fun _ _ => True) ?_
    fun past' r _ => ?_)
  · refine Program.FollowsFor.ite (fun _ => onTarget_finish row _ _ (by rintro ⟨⟩) (by rintro ⟨⟩))
      fun _ => ?_
    refine Program.FollowsFor.bind ((onTarget_undo hadmits hcapability row h).mono fun past' r hr => ?_)
    cases r with
    | error e => trivial
    | ok undone =>
      refine onTarget_finish row _ _ ?_ ?_
      · unfold afterUndo
        split <;> rintro ⟨⟩
      · unfold afterUndo
        split
        · exact fun _ => hr undone rfl ‹_›
        · rintro ⟨⟩
  · cases r with
    | error e => trivial
    | ok row' =>
      exact onTarget_end (Program.Issues.bind (aside_of_closing (closing_closeChange ..)) fun _ =>
        Program.issues_ofExcept _)

/-- **The verification reads** of the action that is known to be the call's. -/
theorem onTarget_verifyReads (hadmits : admits call)
    (hcapability : site.registry.capability call.step.capability = some capability) {spec : Verify}
    (hspec : capability.verify = some spec) (id : Nat) (assertion : Json) (n attempt : Nat)
    (why : String) (last : Option AdapterResult) (h : HasHash (call.wanted site) id past) :
    (verifyReads site call.step id spec assertion
      (readParameters site call.step spec.capability spec.parameters) n attempt why last).FollowsFor
        Sure (OnTarget site admits) past fun past' r => HasHash (call.wanted site) id past' ∧
          ∀ attempts result, r = .ok (.shown attempts result) → Shown site admits id past' := by
  have hK := hasHash_growing (call.wanted site) id
  induction n generalizing past attempt why last with
  | zero => exact ⟨h, by rintro _ _ ⟨⟩⟩
  | succ n ih =>
    refine followsFor_ask (Op.Aside.onTarget (by exact trivial) past)
      (fun _ _ => ⟨hK _ _ h, by rintro _ _ ⟨⟩⟩) fun a _ => ?_
    have h' := hK _ (⟨.callAdapter spec.capability
      (readParameters site call.step spec.capability spec.parameters) call.step.stepId attempt
        (some ⟨id, assertion, call.step.parameters⟩), .ok a⟩ : Calls.Done) h
    refine Program.FollowsFor.bind (Program.FollowsFor.ofExcept ?_)
    cases hglance : glance site call.step assertion spec.failed a with
    | error e => exact ⟨h', by rintro _ _ ⟨⟩⟩
    | ok seen =>
      cases seen with
      | failed error => exact ih _ _ _ h'
      | failedAgain result => exact ⟨h', by rintro _ _ ⟨⟩⟩
      | notYet result => exact ih _ _ _ h'
      | holds result =>
        refine ⟨h', fun attempts result' _ => ?_⟩
        rcases glance_shown id hglance with ⟨-, -, hshows⟩ | ⟨hnot, -⟩
        · exact ⟨past, _, _, _, _, _, a, rfl, hshows, call, capability, spec, hadmits, hcapability,
            hspec, rfl, rfl, rfl, h⟩
        · exact absurd rfl (hnot result)

theorem onTarget_verifyAndFinish (hadmits : admits call)
    (hcapability : site.registry.capability call.step.capability = some capability)
    (row : ActionRow) (evidence : String) (lost : Option String)
    (h : HasHash (call.wanted site) row.id past) :
    (verifyAndFinish site call capability row evidence lost).FollowsFor Sure (OnTarget site admits)
      past fun _ _ => True := by
  unfold verifyAndFinish
  split
  · trivial
  rename_i spec hspec
  refine Program.FollowsFor.bind (Program.FollowsFor.ofExcept ?_)
  split
  · rename_i plan hplan
    refine Program.FollowsFor.bind ((onTarget_verifyReads hadmits hcapability hspec row.id _ _ _ _ _
      h).mono fun past' r hr => ?_)
    cases r with
    | error e => trivial
    | ok seen =>
      cases seen with
      | shown attempts result =>
        refine Program.FollowsFor.bind ((onTarget_finish row _ _ (fun _ => hr.2 attempts result rfl)
          (by rintro ⟨⟩)).mono fun past'' r _ => ?_)
        cases r with
        | error e => trivial
        | ok row' =>
          exact onTarget_end (Program.Issues.bind (aside_of_closing (closing_closeChange ..)) fun _ =>
            Program.issues_ofExcept _)
      | notShown why last =>
        cases lost with
        | none => exact onTarget_rollBack hadmits hcapability row _ _ hr.1
        | some lost =>
          refine onTarget_end (Program.Issues.bind (aside_of_closing (closing_finish row _ ?_))
            fun _ => Program.issues_ofExcept _)
          exact ⟨by rintro ⟨⟩, by rintro ⟨⟩⟩
  · trivial

/-! ## The write -/

theorem onTarget_send (hadmits : admits call)
    (hcapability : site.registry.capability call.step.capability = some capability)
    (row : ActionRow) (grant : Grant) (h : HasHash (call.wanted site) row.id past) :
    (send site call capability row grant).FollowsFor Sure (OnTarget site admits) past
      fun _ _ => True := by
  have hK := hasHash_growing (call.wanted site) row.id
  have hinvoke : (invokeWrite site .write row capability.id call.step.parameters grant).Issues
      Op.Aside := by
    refine Program.Issues.bind (issues_ask trivial) fun _ => ?_
    refine Program.Issues.bind aside_killSwitches fun on => ?_
    exact Program.Issues.ite (fun _ => trivial) fun _ => issues_ask rfl
  refine Program.FollowsFor.bind (Program.FollowsFor.attempt
    ((onTarget_aside hinvoke hK h).mono fun past₁ r h₁ => ?_))
  cases r with
  | error e =>
    exact Program.FollowsFor.ite (fun _ => onTarget_verifyAndFinish hadmits hcapability row _ _ h₁)
      fun _ => onTarget_rollBack hadmits hcapability row _ _ h₁
  | ok a =>
    refine Program.FollowsFor.ite (fun _ => ?_) fun _ =>
      onTarget_rollBack hadmits hcapability row _ _ h₁
    refine followsFor_ask (Op.Aside.onTarget (by constructor <;> rintro ⟨⟩) past₁)
      (fun _ _ => trivial) fun moved hmoved => ?_
    cases moved with
    | none => trivial
    | some row' =>
      have hid : row'.id = row.id := (hmoved.honest _ _ row' rfl rfl).about _ rfl
      have hnote : (noteChange row' (s!"L1 Agent ran {capability.id} " ++
          site.canonicalText call.step.parameters ++ ".")).Issues Op.Aside :=
        aside_of_closing (closing_noteChange ..)
      refine Program.FollowsFor.bind ((onTarget_aside hnote hK (hK _ _ h₁)).mono fun past₂ r h₂ => ?_)
      cases r with
      | error e => trivial
      | ok _ =>
        refine onTarget_verifyAndFinish hadmits hcapability row' _ _ ?_
        rw [hid]
        exact h₂

theorem aside_stages (row : ActionRow) :
    (firstStop (stages site call capability row)).Issues Op.Aside := by
  have hfirst : ∀ {list : List (Prog (Option Stop))}, (∀ stage ∈ list, stage.Issues Op.Aside) →
      (firstStop list).Issues Op.Aside := by
    intro list
    induction list with
    | nil => exact fun _ => trivial
    | cons stage list ih =>
      intro hlist
      refine Program.Issues.bind (hlist stage (List.mem_cons_self ..)) fun stop => ?_
      cases stop with
      | some stop => trivial
      | none => exact ih fun s hs => hlist s (List.mem_cons_of_mem _ hs)
  have hchecks : ∀ checks, (preCheckStop site call checks).Issues Op.Aside := by
    intro checks
    induction checks with
    | nil => trivial
    | cons check checks ih =>
      refine Program.Issues.bind (issues_ask trivial) fun a => ?_
      refine Program.Issues.bind (Program.issues_ofExcept _) fun ok => ?_
      exact Program.Issues.ite (fun _ => ih) fun _ => trivial
  refine hfirst fun stage hstage => ?_
  rcases List.mem_cons.mp hstage with rfl | hstage
  · exact Program.Issues.bind aside_killSwitches fun _ => trivial
  rcases List.mem_cons.mp hstage with rfl | hstage
  · exact Program.Issues.bind (issues_ask trivial) fun _ => trivial
  rcases List.mem_cons.mp hstage with rfl | hstage
  · exact hchecks capability.preChecks
  · cases List.mem_singleton.mp hstage
    refine Program.Issues.ite (fun _ => ?_) fun _ => trivial
    refine Program.Issues.bind (Program.Issues.attempt ?_) fun _ => trivial
    exact Program.Issues.bind (issues_ask trivial) fun _ => issues_ask trivial

theorem onTarget_act (hadmits : admits call)
    (hcapability : site.registry.capability call.step.capability = some capability)
    (row : ActionRow) (h : HasHash (call.wanted site) row.id past) :
    (act site call capability row).FollowsFor Sure (OnTarget site admits) past fun _ _ => True := by
  have hK := hasHash_growing (call.wanted site) row.id
  have hstop : ∀ {past : List Calls.Done} (stop : Stop), stop.Early →
      (stopped site call row stop).FollowsFor Sure (OnTarget site admits) past fun _ _ => True :=
    fun stop hstop => onTarget_end (aside_of_closing (closing_stopped row hstop (by decide)))
  refine Program.FollowsFor.bind (((onTarget_aside (aside_stages row) hK h).and_always
    (early_stages call capability row)).mono fun past₁ r hr => ?_)
  match r with
  | .error e => trivial
  | .ok (some stop) => exact hstop stop (hr.2 stop rfl)
  | .ok none =>
    refine Program.FollowsFor.bind ?_
    refine followsFor_ask (Op.Aside.onTarget (by exact trivial) past₁) (fun _ _ => trivial)
      fun file _ => ?_
    refine followsFor_ask (Op.Aside.onTarget (by exact trivial) _) (fun _ _ => trivial)
      fun authorised hauthorised => ?_
    cases authorised with
    | error why => exact hstop _ (early_notAuthorised why)
    | ok executing =>
      have hid : executing.id = row.id := (hauthorised.honest _ _ executing rfl rfl).about _ rfl
      refine followsFor_ask (Op.Aside.onTarget (by exact trivial) _) (fun _ _ => trivial)
        fun grant _ => ?_
      refine onTarget_send hadmits hcapability executing grant ?_
      rw [hid]
      exact hK _ _ (hK _ _ (hK _ _ hr.1))

/-- The rest of an attempt, for a row of its own action or one that is past acting. -/
theorem onTarget_proceed (hadmits : admits call)
    (hcapability : site.registry.capability call.step.capability = some capability)
    (row : ActionRow) (h : HasHash (call.wanted site) row.id past ∨ row.Settled) :
    (proceed site call capability row).FollowsFor Sure (OnTarget site admits) past
      fun _ _ => True := by
  have hown : (¬ row.Settled) → HasHash (call.wanted site) row.id past := h.resolve_right
  unfold proceed
  cases hs : row.status with
  | approved | allowed =>
    refine onTarget_act hadmits hcapability row (hown ?_)
    rw [ActionRow.Settled, hs]
    decide
  | executed | executing =>
    refine onTarget_verifyAndFinish hadmits hcapability row _ _ (hown ?_)
    rw [ActionRow.Settled, hs]
    decide
  | rollingBack =>
    exact onTarget_end (Program.Issues.bind (aside_of_closing (closing_finish row _ (by decide)))
      fun _ => Program.issues_ofExcept _)
  | _ => exact Program.FollowsFor.ofExcept trivial

/-- The operations by which an attempt comes by its row. -/
theorem early_onTarget (hadmits : admits call) (hid : capability.id = call.step.capability)
    {o : Op} (ho : o.early site call capability past) : OnTarget site admits past o := by
  by_cases hdecision : ∃ d payload, o = .db (.recordDecision d payload)
  · obtain ⟨d, payload, rfl⟩ := hdecision
    refine ⟨by rintro _ _ _ ⟨⟩, by rintro _ _ _ _ _ _ ⟨⟩,
      by rintro _ _ _ _ _ _ ⟨⟩, ?_⟩
    rintro d' payload' ⟨⟩
    have hd : call.Decides site capability d := ho
    refine ⟨call, hadmits, ?_, hd.capabilityId.trans hid, hd.parameters⟩
    rw [hd.hash, hid]
    rfl
  · refine Op.Aside.onTarget ?_ past
    cases o with
    | db c =>
      cases c with
      | recordDecision d payload => exact absurd ⟨d, payload, rfl⟩ hdecision
      | transition id fromStatuses toStatus =>
        rcases ho.1 with ⟨-, rfl | rfl⟩ | ⟨-, rfl⟩ <;> constructor <;> rintro ⟨⟩
      | _ => trivial
    | _ => trivial

/-- **An attempt** calls what is on target. -/
theorem onTarget_perform (hadmits : admits call) :
    (perform site call).FollowsFor Sure (OnTarget site admits) [] fun _ _ => True := by
  refine followsFor_perform (F := Program.Given Sure) .nil (fun capability hcapability => ?_) ?_
  · have hid : capability.id = call.step.capability := by
      simpa using List.find?_some hcapability
    refine ⟨fun past o _ ho => ?_, fun past d h _ hd => h.snoc hd, fun past d h => h.honest⟩
    exact early_onTarget hadmits hid ho
  · intro capability past row row' hcapability _ hgiven hhas hkept hsame
    have hid : capability.id = call.step.capability := by
      simpa using List.find?_some hcapability
    rcases hhas.obtained.own_or_settled hid hgiven with hhash | hsettled
    · refine onTarget_proceed hadmits hcapability row' (.inl ⟨row, hhas.reported, ?_, hhash⟩)
      exact hkept.id_eq.symm
    · have hnot : row.status ∉ undone := by
        rcases hsettled with hfinal | hrolling
        · intro hmem
          have hall : ∀ st ∈ undone, st.isFinal = false := by decide
          rw [hall _ hmem] at hfinal
          cases hfinal
        · rw [hrolling]
          decide
      rw [hsame hnot]
      exact onTarget_proceed hadmits hcapability row (.inr hsettled)

end ActionService

/-- The coroutines of the pipeline. -/
theorem pipeline_onTarget {site : Site} {admits : ActionCall → Prop} {p : Prog Unit}
    (h : Pipeline site admits p) :
    p.FollowsFor Sure (OnTarget site admits) [] fun _ _ => True := by
  cases h with
  | perform call h =>
    refine Program.FollowsFor.bind ((ActionService.onTarget_perform h).mono fun past r _ => ?_)
    cases r <;> trivial
  | sweep pollDue =>
    have hsweep : ((ActionService.sweep site pollDue).bind fun _ => .ret ()).Issues Op.ofSweep :=
      Program.Issues.bind (ActionService.of_sweep (Program.issues_compositional _)
        (fun o h _ => issues_ask h) pollDue) fun _ => trivial
    refine ActionService.onTarget_end (hsweep.mono fun o ho => ?_)
    cases o with
    | db c =>
      cases c with
      | transition id fromStatuses toStatus =>
        rcases ho.2.1 with rfl | rfl <;> constructor <;> rintro ⟨⟩
      | recordDecision => exact ho.elim
      | _ => trivial
    | write => exact ho.elim
    | _ => trivial
  | decide id answer =>
    refine followsFor_ask (Op.Aside.onTarget (by exact trivial) _) (fun _ _ => trivial)
      fun expired _ => ?_
    cases expired <;> trivial
  | other o ho =>
    refine followsFor_ask (Op.Aside.onTarget ?_ _) (fun _ _ => trivial) fun _ _ => trivial
    cases o with
    | db c =>
      cases c with
      | transition | recordDecision => cases ho
      | _ => trivial
    | write => cases ho
    | _ => trivial

/-! ## What is claimed -/

/-- The step renders to the recorded action: to its capability, and to its parameters, up to the
order of their keys. -/
structure ActionRow.RenderedBy (r : ActionRow) (step : SOPStep) : Prop where
  capability : step.capability = r.capabilityId
  parameters : Json.canonical step.parameters = Json.canonical r.parameters

section
variable {site : Site} {admits : ActionCall → Prop}

/-- The read verifies the action that the row records: it is of the capability that verifies the
action, with those of the recorded parameters that this capability takes. -/
def ActionRow.VerifiedBy (site : Site) (r : ActionRow) (name : String) (parameters : Json)
    (l : Looking) : Prop :=
  ∃ step capability spec, r.RenderedBy step ∧
    site.registry.capability r.capabilityId = some capability ∧ capability.verify = some spec ∧
      name = spec.capability ∧
        parameters = ActionService.readParameters site step spec.capability spec.parameters ∧
          l.parameters = step.parameters

/-- The write undoes the action that the row records. -/
def ActionRow.UndoneBy (site : Site) (r : ActionRow) (w : WriteCall) : Prop :=
  ∃ step capability, r.RenderedBy step ∧
    site.registry.capability r.capabilityId = some capability ∧
      w.capabilityId = capability.rollback ∧
        w.parameters = ActionService.readParameters site step capability.rollback []

/-- **Verification and rollback are about the recorded action.** -/
structure OwnTarget (tr : List (System.Event (site.pipeline admits))) : Prop where
  /-- An action becomes verified on a read of the attempt's own, which shows the result of the
  recorded action. -/
  verified : System.Each (fun pre ev => ∀ id r r', ev.before.db.actions.get? id = some r →
    ev.after.db.actions.get? id = some r' → r.status ≠ .verified → r'.status = .verified →
      ∃ past name parameters stepId attempt l a, System.own ev.thread pre =
        past ++ [(⟨.callAdapter name parameters stepId attempt (some l), .ok a⟩ : Calls.Done)] ∧
          Deed.Shows site id (.looked l a) ∧ r.VerifiedBy site name parameters l) tr
  /-- Each rollback that is sent for an action undoes the recorded one. -/
  rollback : ∀ ev ∈ tr, ∀ id grant w, ev.op = Op.write .rollback id grant w →
    ∃ r, ev.before.db.actions.get? id = some r ∧ r.UndoneBy site w
  /-- An action becomes rolled back on a rollback of the attempt's own, which went well. -/
  rolledBack : System.Each (fun pre ev => ∀ id r r', ev.before.db.actions.get? id = some r →
    ev.after.db.actions.get? id = some r' → r.status ≠ .rolledBack → r'.status = .rolledBack →
      Reversed id (System.own ev.thread pre)) tr

/-- Every row records the action of a call. -/
def Estate.Records (site : Site) (admits : ActionCall → Prop) (s : Estate) : Prop :=
  ∀ id r, s.db.actions.get? id = some r → ∃ call, admits call ∧ r.actionHash = call.wanted site ∧
    r.capabilityId = call.step.capability ∧ r.parameters = call.step.parameters

theorem ActionRow.recorded_of_subject {r r' : ActionRow} (h : r'.subject = r.subject) :
    r'.actionHash = r.actionHash ∧ r'.capabilityId = r.capabilityId ∧
      r'.parameters = r.parameters := by
  have hproj : ∀ {β : Type} (f : ActionRow → β), f r'.subject = f r.subject := by
    intro β f
    rw [h]
  exact ⟨hproj (·.actionHash), hproj (·.capabilityId), hproj (·.parameters)⟩

/-- One step keeps the rows to the calls. -/
theorem records_step {tr : List (System.Event (site.pipeline admits))}
    {ev : System.Event (site.pipeline admits)} (hev : (Site.event ev).Happens)
    (htarget : OnTarget site admits (System.own ev.thread tr) ev.op)
    (h : ev.before.Records site admits) : ev.after.Records site admits := by
  intro id r' hr'
  cases hr : ev.before.db.actions.get? id with
  | none =>
    obtain ⟨d, payload, v, incidentId, hc, rfl⟩ := hev.row_added hr hr'
    obtain ⟨call, hadmits, hhash, hcapability, hparameters⟩ := htarget.decision d payload hc.1
    exact ⟨call, hadmits, hhash, hcapability, hparameters⟩
  | some r =>
    obtain ⟨call, hadmits, hrow⟩ := h id r hr
    obtain ⟨r'', hr'', hsubject⟩ := subjectsStay_step hev id r hr
    have hsame : r'' = r' := Option.some_inj.mp (hr''.symm.trans hr')
    subst hsame
    obtain ⟨hhash, hcapability, hparameters⟩ := ActionRow.recorded_of_subject hsubject
    refine ⟨call, hadmits, ?_⟩
    rw [hhash, hcapability, hparameters]
    exact hrow

/-- A row moves only by the operation that says so. -/
theorem moved_by {ev : site.Event} (hev : ev.Happens) {id : Nat} {r r' : ActionRow}
    {toStatus : ActionStatus} (hto : toStatus = .verified ∨ toStatus = .rolledBack)
    (hr : ev.before.db.actions.get? id = some r) (hr' : ev.after.db.actions.get? id = some r')
    (hs : r.status ≠ toStatus) (hs' : r'.status = toStatus) :
    ∃ fromStatuses event payload values wake,
      ev.op = Op.db (.transition id fromStatuses toStatus event payload values wake) := by
  have hid := ActionTable.get?_id hr
  rcases hev.row_moves hr hr' with rfl | ⟨c, v, hc, hmove⟩
  · exact absurd hs' hs
  cases hmove with
  | same => exact absurd hs' hs
  | noted event payload values => exact absurd hs' hs
  | moved fromStatuses toStatus' event payload values wake hfrom =>
    have heq : toStatus' = toStatus := hs'
    rw [← heq, ← hid]
    exact ⟨fromStatuses, event, payload, values, wake, hc.1⟩
  | begun localSwitch hfrom =>
    subst hs'
    rcases hto with h | h <;> cases h
  | answered a hok htime =>
    subst hs'
    have hanswered : ∀ b, (if b = true then ActionStatus.approved else .rejected) ≠ .verified ∧
        (if b = true then ActionStatus.approved else .rejected) ≠ .rolledBack := by decide
    rcases hto with h | h
    · exact absurd h (hanswered a.approve).1
    · exact absurd h (hanswered a.approve).2
  | expired a hok =>
    subst hs'
    rcases hto with h | h <;> cases h

/-- **Verification and rollback are about the recorded action**, in every run in which no attempt
is given another action's row that is still to be acted on or verified. -/
theorem own_target (site : Site) (admits : ActionCall → Prop) (hapart : TellsApart site admits)
    (s : Estate) (hs : s.Fresh)
    (d : Config Calls Exn (Estate × List (System.Event (site.pipeline admits))))
    (hd : (site.pipeline admits).recorded.Reaches
      (fun t o ch s => ∀ x s', Op.step site t o ch s.1 = some (x, s') →
        ¬ Mistaken (System.own t s.2) ⟨o, x⟩) (Config.idle (s, [])) d) :
    OwnTarget d.shared.2 := by
  have heach := System.recorded_each hd
  have hevent : ∀ ev ∈ d.shared.2, (Site.event ev).Happens := by
    intro ev hev
    obtain ⟨pre, post, hsplit⟩ := List.append_of_mem hev
    exact (heach pre ev post hsplit).2
  have hsure : System.Each (fun pre ev => Sure (System.own ev.thread pre) ⟨ev.op, ev.answer⟩)
      d.shared.2 := by
    intro pre ev post hsplit
    obtain ⟨hcond, hrun⟩ := heach pre ev post hsplit
    exact ⟨honest_event hrun _, hcond _ _ hrun⟩
  have htarget := System.recorded_followsFor (fun _ hp => pipeline_onTarget hp) hd hsure
  have hrecords := System.recorded_induction (I := fun s _ => s.Records site admits) hd
    (fun id r hr => by
      rw [ActionTable.get?, hs.actions] at hr
      cases hr)
    fun pre ev post hsplit h => records_step (hevent ev (by simp [hsplit]))
      (htarget pre ev post hsplit) h
  have hstay := System.recorded_between (R := Estate.SubjectsStay) (P := fun _ => True)
    Estate.SubjectsStay.refl (fun _ _ _ => Estate.SubjectsStay.trans)
    (fun p _ => p.issues_any) (fun ev _ hev => @subjectsStay_step site (Site.event ev) hev) hd
  have hown : ∀ pre ev post, d.shared.2 = pre ++ ev :: post → ∀ call id, admits call →
      HasHash (call.wanted site) id (System.own ev.thread pre) →
        ∃ r, ev.before.db.actions.get? id = some r ∧ r.RenderedBy call.step := by
    intro pre ev post hsplit call id hadmits hhash
    obtain ⟨r₀, hreported, rfl, hhash⟩ := hhash
    obtain ⟨e, he, hrow⟩ := hreported.event fun e he => hevent e (by simp [hsplit, he])
    obtain ⟨r, hr, hsubject⟩ := (hstay pre ev post hsplit).2 e he r₀.id r₀ hrow
    obtain ⟨call', hadmits', hrhash, hcapability, hparameters⟩ :=
      hrecords.2 pre ev post hsplit r₀.id r hr
    have hsame := (ActionRow.recorded_of_subject hsubject).1
    obtain ⟨hc, hp⟩ := hapart call call' hadmits hadmits'
      (hhash.symm.trans (hsame.symm.trans hrhash))
    refine ⟨r, hr, hc.trans hcapability.symm, ?_⟩
    rw [hp, hparameters]
  refine ⟨fun pre ev post hsplit => ?_, fun ev hev => ?_, fun pre ev post hsplit => ?_⟩
  · intro id r r' hr hr' hs hs'
    obtain ⟨fromStatuses, event, payload, values, wake, hop⟩ :=
      moved_by (hevent ev (by simp [hsplit])) (.inl rfl) hr hr' hs hs'
    obtain ⟨past, name, parameters, stepId, attempt, l, a, hpast, hshows, call, capability, spec,
      hadmits, hcapability, hspec, hname, hparameters, hl, hhash⟩ :=
      (htarget pre ev post hsplit).verified id _ _ _ _ _ hop
    have hhash' : HasHash (call.wanted site) id (System.own ev.thread pre) := by
      rw [hpast, ← hshows.1]
      exact hasHash_growing _ _ _ _ hhash
    obtain ⟨r₁, hr₁, hrendered⟩ := hown pre ev post hsplit call id hadmits hhash'
    obtain rfl : r = r₁ := Option.some_inj.mp (hr.symm.trans hr₁)
    rw [hrendered.capability] at hcapability
    exact ⟨past, name, parameters, stepId, attempt, l, a, hpast, hshows, call.step, capability, spec,
      hrendered, hcapability, hspec, hname, hparameters, hl⟩
  · obtain ⟨pre, post, hsplit⟩ := List.append_of_mem hev
    intro id grant w hop
    obtain ⟨call, capability, hadmits, hcapability, hw, hparameters, hhash⟩ :=
      (htarget pre ev post hsplit).rollback id grant w hop
    obtain ⟨r, hr, hrendered⟩ := hown pre ev post hsplit call id hadmits hhash
    rw [hrendered.capability] at hcapability
    exact ⟨r, hr, call.step, capability, hrendered, hcapability, hw, hparameters⟩
  · intro id r r' hr hr' hs hs'
    obtain ⟨fromStatuses, event, payload, values, wake, hop⟩ :=
      moved_by (hevent ev (by simp [hsplit])) (.inr rfl) hr hr' hs hs'
    exact (htarget pre ev post hsplit).rolledBack id _ _ _ _ _ hop

end

/-! ## One step, rendered twice -/

/-- Reading how a job is. -/
def statusCapability : Capability where
  id := "JOB_STATUS"
  kind := .read
  tier := some .t0
  properties := ["job"]

/-- A deployment whose connector restarts jobs and reads their status. -/
def jobSite : Site :=
  { sampleSite with
    withActions := sampleSite.withActions
    registry :=
      { capabilities := [sampleCapability, statusCapability]
        linted := by
          intro c hc hwrite
          rcases List.mem_cons.mp hc with rfl | hc
          · exact ⟨_, rfl, by decide, by decide⟩
          · cases List.mem_singleton.mp hc
            cases hwrite } }

/-- The same step, rendered to another job. -/
def payrollCall : ActionCall :=
  { sampleCall with step := { sampleCall.step with parameters := .obj [("job", .str "payroll")] } }

/-- The step of one run, as it may render. -/
def JobCall (call : ActionCall) : Prop := call = sampleCall ∨ call = payrollCall

theorem jobs_told_apart : TellsApart jobSite JobCall := by
  have hne : sampleCall.wanted jobSite ≠ payrollCall.wanted jobSite := by decide +kernel
  rintro call call' (rfl | rfl) (rfl | rfl) hsame
  · exact ⟨rfl, rfl⟩
  · exact absurd hsame hne
  · exact absurd hsame.symm hne
  · exact ⟨rfl, rfl⟩

/-- An attempt as a coroutine. -/
def jobPerform (call : ActionCall) : Prog Unit :=
  (ActionService.perform jobSite call).bind fun _ => .ret ()

/-- The pipeline of that deployment. -/
abbrev jobPipeline : System Calls Exn Estate := jobSite.pipeline JobCall

/-- The first attempt stops after it has been authorised, and `call` is then the step's call. -/
def resumedWith (call : ActionCall) (n : Nat) : List jobPipeline.recorded.Move :=
  (.start (jobPerform sampleCall) :: List.replicate 19 (.op 0 smooth)) ++
    (.start (jobPerform call) :: List.replicate n (.op 1 smooth))


theorem resumedWith_starts {call : ActionCall} (h : JobCall call) (n : Nat) :
    jobPipeline.recorded.Starts (resumedWith call n) :=
  .append (.start (Pipeline.perform sampleCall (.inl rfl)) .ops)
    (.start (Pipeline.perform call h) .ops)

/-- The parameters that the last operation looked for, if it was a verification read. -/
def lookedFor (past : List Calls.Done) : Option String :=
  past.getLast?.bind fun d => match d.op with
    | .callAdapter _ _ _ _ (some l) => some (sampleText l.parameters.canonical)
    | _ => none

/-- The actions that become verified: what each records, and what was looked for. -/
def evidence (pre : List (System.Event jobPipeline)) :
    List (System.Event jobPipeline) → List (String × Option String)
  | [] => []
  | ev :: post =>
    (ev.before.db.actions.rows.filter fun r => r.status ≠ .verified ∧
      (ev.after.db.actions.get? r.id).any (·.status = .verified)).map
        (fun r => (sampleText r.parameters.canonical, lookedFor (System.own ev.thread pre))) ++
      evidence (pre ++ [ev]) post

/-- What was looked for is what is recorded. -/
theorem evidence_own {pre post : List (System.Event jobPipeline)} (h : OwnTarget (pre ++ post)) :
    ∀ x ∈ evidence pre post, x.2 = some x.1 := by
  induction post generalizing pre with
  | nil =>
    intro x hx
    cases hx
  | cons ev post ih =>
    intro x hx
    rcases List.mem_append.mp hx with hx | hx
    · obtain ⟨r, hr, rfl⟩ := List.mem_map.mp hx
      obtain ⟨hmem, hcond⟩ := List.mem_filter.mp hr
      obtain ⟨hs, hafter⟩ := of_decide_eq_true hcond
      obtain ⟨r', hr', hs'⟩ := (Option.any_eq_true _ _).mp hafter
      obtain ⟨past, name, parameters, stepId, attempt, l, a, hpast, -, step, capability, spec,
        hrendered, -, -, -, -, hl⟩ := h.verified pre ev post rfl r.id r r'
          (ActionTable.get?_of_mem hmem) hr' hs (of_decide_eq_true hs')
      show lookedFor (System.own ev.thread pre) = some (sampleText r.parameters.canonical)
      rw [hpast, lookedFor, List.getLast?_concat, ← hrendered.parameters, ← hl]
      rfl
    · exact ih (by simpa using h) x hx

/-- A check of the condition, for attempts that find a row of their own or none. -/
def Op.unmistaken (past : List Calls.Done) : Op → Bool
  | .db (.get _) => false
  | .db (.find ..) => past.isEmpty
  | _ => true

theorem Op.unmistaken_spec {past : List Calls.Done} {o : Op} (h : o.unmistaken past = true)
    (x : Except Exn o.Val) : ¬ Mistaken past ⟨o, x⟩ := by
  intro hmistaken
  cases hmistaken with
  | overtaken => cases h
  | raced pre d payload e runId stepId row => simp [Op.unmistaken] at h

/-- An attempt that was stopped while its write was under way, and the resumed one, which has
verified the same action. -/
theorem own_target_sample : ∃ d : Config Calls Exn (Estate × List (System.Event jobPipeline)),
    evidence [] d.shared.2 = [("job:billing,.", some "job:billing,.")] ∧
      OwnTarget d.shared.2 := by
  have hplay : ((jobPipeline.recorded.playIf
      (fun t o _ s => o.unmistaken (System.own t s.2)) (Config.idle (sampleEstate, []))
      (resumedWith sampleCall 3)).map fun d => evidence [] d.shared.2) =
      some [("job:billing,.", some "job:billing,.")] := by
    decide +kernel
  obtain ⟨d, hd, hends⟩ := Option.map_eq_some_iff.mp hplay
  refine ⟨d, hends, own_target jobSite JobCall jobs_told_apart sampleEstate sampleEstate_fresh d
    (System.playIf_reaches _ (fun t (o : Op) ch s hok => ?_) (resumedWith_starts (.inl rfl) 3) hd)⟩
  exact fun x s' _ => Op.unmistaken_spec hok x

/-- **One action is verified by the target of another.**  The row is found while its write is
under way, so it is not ended; what is read is the job that the step now renders to. -/
theorem own_target_missed : ¬ ∀ (site : Site) (admits : ActionCall → Prop),
    TellsApart site admits → ∀ s : Estate, s.Fresh →
      ∀ d : Config Calls Exn (Estate × List (System.Event (site.pipeline admits))),
        (site.pipeline admits).recorded.Reaches (System.anyStep _) (Config.idle (s, [])) d →
          OwnTarget d.shared.2 := by
  intro hall
  have hplay : ((jobPipeline.recorded.play (Config.idle (sampleEstate, []))
      (resumedWith payrollCall 5)).map fun d => evidence [] d.shared.2) =
      some [("job:billing,.", some "job:payroll,.")] := by
    decide +kernel
  obtain ⟨d, hd, hends⟩ := Option.map_eq_some_iff.mp hplay
  have hown := hall jobSite JobCall jobs_told_apart sampleEstate sampleEstate_fresh d
    (System.play_reaches _ (resumedWith_starts (.inr rfl) 5) hd)
  have hsame := @evidence_own [] _ hown ("job:billing,.", some "job:payroll,.") (by simp [hends])
  exact absurd hsame (by decide)

end L1Agent
