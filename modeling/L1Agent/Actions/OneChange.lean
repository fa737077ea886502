import L1Agent.Actions.Attempted
import L1Agent.Itsm.Changes

/-! # One change record per action

`open_change` looks for the change of an action and creates one if there is none, and nothing
keeps another attempt from creating it in between.  An action has one change in the runs in which
no attempt does (`one_change`), and not in all of them (`two_changes`).

The requests are modelled one by one, so that a read and a creation are events of their own
(`changeSystem`).  `Opening` is what a coroutine does in its own order, `followsFor_openChange` and
`changeSystem_opening` keep to it, and `recorded_step` says what a step makes of the change that
the row records.
-/
namespace L1Agent
open Interleaving

/-! ## What an attempt records of a change -/

/-- What an attempt writes into the columns of the change record. -/
structure Recording (past : List Calls.Done) (o : Op) : Prop where
  note : ∀ id event payload values, o = .db (.note id event payload values) →
    values.Unopened ∨ Opens past id values
  transition : ∀ id fromStatuses toStatus event payload values wake,
    o = .db (.transition id fromStatuses toStatus event payload values wake) → values.Unopened

theorem Op.Unopening.recording {o : Op} (h : o.Unopening) (past : List Calls.Done) :
    Recording past o where
  note := by
    rintro id event payload values rfl
    exact .inl h
  transition := by
    rintro id fromStatuses toStatus event payload values wake rfl
    exact h

namespace ActionService
variable {site : Site} {call : ActionCall} {capability : Capability} {past : List Calls.Done}

/-- A coroutine that opens no change. -/
theorem recording_unopening {α : Type} {p : Prog α} (hp : p.Issues Op.Unopening) :
    p.FollowsFor Honest Recording past fun _ _ => True :=
  hp.followsFor (K := fun _ => True) (fun past _ _ ho => Op.Unopening.recording ho past)
    (fun _ _ _ _ _ => trivial) trivial

/-- The operations by which an attempt comes by its row. -/
theorem early_recording : Early site call capability Honest Recording fun _ => True where
  ok past o _ ho := by
    refine ⟨?_, ?_⟩
    · rintro id event payload values rfl
      exact ho
    · rintro id fromStatuses toStatus event payload values wake rfl
      exact ho.2
  keep _ _ _ _ _ := trivial
  honest _ _ h := h

/-- **An attempt** records the change that it opened, and no other. -/
theorem recording_perform (call : ActionCall) :
    (perform site call).FollowsFor Honest Recording [] fun _ _ => True := by
  refine followsFor_perform (F := fun _ => True) trivial (fun _ _ => early_recording) ?_
  intro capability past row row' _ _ _ _ _ _
  exact recording_unopening (of_proceed (Program.issues_compositional _)
    (fun o _ ho => issues_ask ho) call capability row')

end ActionService

/-- The coroutines of the pipeline. -/
theorem pipeline_recording {site : Site} {admits : ActionCall → Prop} {p : Prog Unit}
    (h : Pipeline site admits p) : p.FollowsFor Honest Recording [] fun _ _ => True := by
  cases h with
  | perform call h =>
    refine Program.FollowsFor.bind ((ActionService.recording_perform call).mono fun past r _ => ?_)
    cases r <;> trivial
  | sweep pollDue =>
    refine ActionService.recording_unopening (Program.Issues.bind ?_ fun _ => trivial)
    exact ActionService.of_sweep (Program.issues_compositional _) (fun o _ ho => issues_ask ho) pollDue
  | decide id answer =>
    refine followsFor_ask (Op.Unopening.recording (by exact trivial) _) (fun _ _ => trivial)
      fun expired _ => ?_
    cases expired <;> trivial
  | other o ho =>
    refine followsFor_ask ⟨?_, ?_⟩ (fun _ _ => trivial) fun _ _ => trivial
    · rintro id event payload values rfl
      cases ho
    · rintro id fromStatuses toStatus event payload values wake rfl
      cases ho

/-! ## The requests -/

/-- A transaction of the past has told of the row. -/
def Learned (past : List ChangeCalls.Done) (r : ActionRow) : Prop :=
  ∃ (c : DbCall) (v : c.Val), (⟨.here (.db c), .ok v⟩ : ChangeCalls.Done) ∈ past ∧ c.told v = some r

/-- The instance has answered with this change for the correlation. -/
def Answered (correlation : String) (ref : ChangeRef) (past : List ChangeCalls.Done) : Prop :=
  (⟨.snow (.findChange correlation), .ok (some ref)⟩ : ChangeCalls.Done) ∈ past ∨
    ∃ templateId fields, fields.correlationId = correlation ∧ ref.sysId ≠ "" ∧
      (⟨.snow (.createChange templateId fields), .ok ref⟩ : ChangeCalls.Done) ∈ past

/-- **What a coroutine calls**, down to the requests. -/
structure Opening (past : List ChangeCalls.Done) (o : ChangeOp) : Prop where
  create : ∀ templateId fields, o = .snow (.createChange templateId fields) →
    (⟨.snow (.findChange fields.correlationId), .ok none⟩ : ChangeCalls.Done) ∈ past
  note : ∀ id event payload values, o = .here (.db (.note id event payload values)) →
    values.Unopened ∨ ∃ row ref, Learned past row ∧ row.id = id ∧
      Answered row.actionHash ref past ∧ values.changeSysId = some ref.sysId ∧
        values.changeNumber = some ref.number
  transition : ∀ id fromStatuses toStatus event payload values wake,
    o = .here (.db (.transition id fromStatuses toStatus event payload values wake)) →
      values.Unopened

/-- What the database tells a coroutine is so. -/
def Truthful (_ : List ChangeCalls.Done) (d : ChangeCalls.Done) : Prop :=
  ∀ (o : Op) (x : Except Exn o.Val), d = ⟨.here o, x⟩ → Honest [] ⟨o, x⟩

/-- What was done, against the requests it was done by. -/
structure DoneBy (past : List Calls.Done) (past' : List ChangeCalls.Done) : Prop where
  learned : ∀ row, Reported past row → Learned past' row
  opened : ∀ row incidentSysId ref,
    (⟨.openChange row incidentSysId, .ok ref⟩ : Calls.Done) ∈ past →
      Answered row.actionHash ref past'

/-- Every request of the past is still one of it. -/
def Extends (past past' : List ChangeCalls.Done) : Prop := ∀ d ∈ past, d ∈ past'

theorem Learned.extends {past past' : List ChangeCalls.Done} {row : ActionRow}
    (h : Learned past row) (hext : Extends past past') : Learned past' row := by
  obtain ⟨c, v, hmem, htold⟩ := h
  exact ⟨c, v, hext _ hmem, htold⟩

theorem Answered.extends {past past' : List ChangeCalls.Done} {correlation : String}
    {ref : ChangeRef} (h : Answered correlation ref past) (hext : Extends past past') :
    Answered correlation ref past' := by
  rcases h with h | ⟨templateId, fields, hcorrelation, hne, h⟩
  · exact .inl (hext _ h)
  · exact .inr ⟨templateId, fields, hcorrelation, hne, hext _ h⟩

/-- A request that creates nothing may come at any time. -/
theorem opening_request {past : List ChangeCalls.Done} {o : SnowOp}
    (h : ∀ templateId fields, o ≠ .createChange templateId fields) : Opening past (.snow o) where
  create := by
    rintro templateId fields ⟨⟩
    exact absurd rfl (h templateId fields)
  note := by rintro _ _ _ _ ⟨⟩
  transition := by rintro _ _ _ _ _ _ _ ⟨⟩

namespace ServiceNowClient
variable {past : List ChangeCalls.Done}

/-- The rule for one request. -/
theorem followsFor_request {α : Type} {o : SnowOp} {f : o.Val → ChangeProg α}
    {Q : List ChangeCalls.Done → Except Exn α → Prop} (hok : Opening past (.snow o))
    (herror : ∀ e, Q (past ++ [⟨.snow o, .error e⟩]) (.error e))
    (h : ∀ v : o.Val, (f v).FollowsFor Truthful Opening (past ++ [⟨.snow o, .ok v⟩]) Q) :
    ((askSnow o).bind f).FollowsFor Truthful Opening past Q := by
  refine ⟨hok, fun answer _ => ?_⟩
  match answer with
  | .error e => exact herror e
  | .ok v => exact h v

/-- A request that creates nothing, whatever it is answered. -/
theorem followsFor_lookup {o : SnowOp} (h : ∀ templateId fields, o ≠ .createChange templateId fields) :
    (askSnow o).FollowsFor Truthful Opening past fun past' _ => Extends past past' := by
  refine ⟨opening_request h, fun answer _ => ?_⟩
  have hext : Extends past (past ++ [⟨.snow o, answer⟩]) := fun d hd => List.mem_append_left _ hd
  match answer with
  | .error e => exact hext
  | .ok v => exact hext

theorem followsFor_assignmentGroup (group : String) :
    (assignmentGroup group).FollowsFor Truthful Opening past fun past' _ => Extends past past' := by
  refine Program.FollowsFor.ite (fun _ _ hd => hd) fun _ => ?_
  refine Program.FollowsFor.bind ?_
  refine Program.FollowsFor.ite (fun _ _ hd => hd) fun _ => ?_
  refine Program.FollowsFor.bind ((followsFor_lookup (by rintro _ _ ⟨⟩)).mono fun past' r hext => ?_)
  cases r with
  | error e => exact hext
  | ok found => exact Program.FollowsFor.ite (fun _ => hext) fun _ => hext

theorem followsFor_linkIncident (incidentSysId : String) (change : ChangeRef) :
    (linkIncident incidentSysId change).FollowsFor Truthful Opening past
      fun past' _ => Extends past past' := by
  refine ⟨opening_request (by rintro _ _ ⟨⟩), fun answer _ => ?_⟩
  have hext : Extends past (past ++ [⟨.snow (.linkIncident incidentSysId change.sysId), answer⟩]) :=
    fun d hd => List.mem_append_left _ hd
  match answer with
  | .ok v => exact hext
  | .error e =>
    refine Program.FollowsFor.ite (p := (pure () : ChangeProg Unit)) (fun _ => hext) fun _ => ?_
    exact hext

/-- **Opening a change**: it is created only after a read that found none, and what is returned
was answered for the correlation. -/
theorem followsFor_openChange (group template correlation shortDescription description
    incidentSysId : String) :
    (openChange group template correlation shortDescription description incidentSysId).FollowsFor
      Truthful Opening past fun past' r => Extends past past' ∧
        ∀ ref, r = .ok ref → Answered correlation ref past' := by
  have hsnoc : ∀ {past past' : List ChangeCalls.Done} (d : ChangeCalls.Done),
      Extends past past' → Extends past (past' ++ [d]) :=
    fun d hext x hx => List.mem_append_left _ (hext x hx)
  have hstart : Extends past past := fun _ hd => hd
  refine followsFor_request (opening_request (by rintro _ _ ⟨⟩))
    (fun e => ⟨hsnoc _ hstart, by rintro _ ⟨⟩⟩) fun found => ?_
  have hlast := List.mem_append_right past (List.mem_singleton.mpr rfl :
    (⟨.snow (.findChange correlation), .ok found⟩ : ChangeCalls.Done) ∈ [_])
  match found with
  | some change =>
    refine ⟨hsnoc _ hstart, fun ref href => ?_⟩
    cases href
    exact .inl hlast
  | none =>
    refine followsFor_request (opening_request (by rintro _ _ ⟨⟩))
      (fun e => ⟨hsnoc _ (hsnoc _ hstart), by rintro _ ⟨⟩⟩) fun templateFound => ?_
    refine Program.FollowsFor.ite (fun _ => ⟨hsnoc _ (hsnoc _ hstart), by rintro _ ⟨⟩⟩) fun _ => ?_
    refine Program.FollowsFor.bind ((followsFor_assignmentGroup group).mono fun past₁ r hext => ?_)
    have hext₁ : Extends past past₁ := fun d hd => hext d (hsnoc _ (hsnoc _ hstart) d hd)
    cases r with
    | error e => exact ⟨hext₁, by rintro _ ⟨⟩⟩
    | ok groupId =>
      refine followsFor_request ⟨?_, by rintro _ _ _ _ ⟨⟩, by rintro _ _ _ _ _ _ _ ⟨⟩⟩
        (fun e => ⟨hsnoc _ hext₁, by rintro _ ⟨⟩⟩) fun change => ?_
      · rintro templateId fields ⟨⟩
        exact hext _ (List.mem_append_left _ hlast)
      refine Program.FollowsFor.ite (fun _ => ⟨hsnoc _ hext₁, by rintro _ ⟨⟩⟩) fun hknown => ?_
      refine Program.FollowsFor.bind
        ((followsFor_linkIncident incidentSysId change).mono fun past₂ r hext₂ => ?_)
      have hext₃ : Extends past past₂ := fun d hd => hext₂ d (hsnoc _ hext₁ d hd)
      cases r with
      | error e => exact ⟨hext₃, by rintro _ ⟨⟩⟩
      | ok _ =>
        refine ⟨hext₃, fun ref href => ?_⟩
        cases href
        have hcreated : (⟨.snow (.createChange (templateFound.getD "")
            { shortDescription, description, correlationId := correlation
              assignmentGroup := groupId }), .ok change⟩ : ChangeCalls.Done) ∈ past₂ :=
          hext₂ _ (List.mem_append_right _ (List.mem_singleton.mpr rfl))
        exact .inr ⟨_, _, rfl, fun hblank => hknown (.inl hblank), hcreated⟩

end ServiceNowClient

/-- An operation of an attempt, down to the requests. -/
theorem followsFor_carriedOut (site : Site) (group : String) (past : List Calls.Done)
    (past' : List ChangeCalls.Done) (o : Op) (hR : DoneBy past past') (ho : Recording past o) :
    (ActionService.carriedOut site group o).FollowsFor Truthful Opening past' fun past'' r =>
      ∃ x, r = .ok x ∧ Honest past ⟨o, x⟩ ∧ DoneBy (past ++ [⟨o, x⟩]) past'' := by
  by_cases hopen : ∃ row incidentSysId, o = .openChange row incidentSysId
  · obtain ⟨row, incidentSysId, rfl⟩ := hopen
    refine Program.FollowsFor.attempt ((ServiceNowClient.followsFor_openChange ..).mono
      fun past'' r hr => ⟨r, rfl, by rintro _ _ _ ⟨⟩, fun row' hrow => ?_, ?_⟩)
    · obtain ⟨c, v, hmem, htold⟩ := hrow
      rcases List.mem_append.mp hmem with hmem | hmem
      · exact (hR.learned row' ⟨c, v, hmem, htold⟩).extends hr.1
      · cases List.mem_singleton.mp hmem
    · intro row' sysId ref hmem
      rcases List.mem_append.mp hmem with hmem | hmem
      · exact (hR.opened row' sysId ref hmem).extends hr.1
      · cases List.mem_singleton.mp hmem
        exact hr.2 ref rfl
  · have hcall : ActionService.carriedOut site group o = .call (E := ChangeCalls) (.here o) .ret := by
      cases o with
      | openChange row incidentSysId => exact absurd ⟨row, incidentSysId, rfl⟩ hopen
      | _ => rfl
    rw [hcall]
    refine ⟨⟨by rintro _ _ ⟨⟩, ?_, ?_⟩, fun x hx => ⟨x, rfl, hx o x rfl, fun row hrow => ?_, ?_⟩⟩
    · rintro id event payload values ⟨⟩
      refine (ho.note id event payload values rfl).imp_right ?_
      rintro ⟨row, incidentSysId, ref, hmem, hreported, hvalues⟩
      obtain ⟨hid, hsysId, hnumber⟩ := hvalues
      exact ⟨row, ref, hR.learned row hreported, hid, hR.opened row incidentSysId ref hmem, hsysId,
        hnumber⟩
    · rintro id fromStatuses toStatus event payload values wake ⟨⟩
      exact ho.transition _ _ _ _ _ _ _ rfl
    · obtain ⟨c, v, hmem, htold⟩ := hrow
      rcases List.mem_append.mp hmem with hmem | hmem
      · exact (hR.learned row ⟨c, v, hmem, htold⟩).extends fun d hd => List.mem_append_left _ hd
      · cases List.mem_singleton.mp hmem
        exact ⟨c, v, List.mem_append_right _ (List.mem_singleton.mpr rfl), htold⟩
    · intro row sysId ref hmem
      rcases List.mem_append.mp hmem with hmem | hmem
      · exact (hR.opened row sysId ref hmem).extends fun d hd => List.mem_append_left _ hd
      · cases List.mem_singleton.mp hmem
        exact absurd ⟨row, sysId, rfl⟩ hopen

/-- **The coroutines of the system**, down to the requests. -/
theorem changeSystem_opening {site : Site} {group : String} {admits : ActionCall → Prop}
    {p : ChangeProg Unit} (h : (site.changeSystem group admits).Entry p) :
    p.FollowsFor Truthful Opening [] fun _ _ => True := by
  obtain ⟨q, hq, rfl⟩ := h
  refine ((pipeline_recording hq).translate (R := DoneBy)
    (fun past past' o => followsFor_carriedOut site group past past' o) ⟨?_, ?_⟩).mono
      fun _ _ _ => trivial
  · rintro row ⟨c, v, hmem, -⟩
    cases hmem
  · rintro row sysId ref hmem
    cases hmem

/-! ## The events of a run -/

section
variable {site : Site} {group : String} {admits : ActionCall → Prop} {t : Nat}
  {ch : Choice × Remote} {s s' : Landscape}

/-- A step of the service is one of the deployment, and leaves the changes alone. -/
theorem ChangeOp.step_here {o : Op} {x : Except Exn o.Val}
    (h : ChangeOp.step site t ch s (.here o) = some (x, s')) :
    o.step site t ch.1 s.estate = some (x, s'.estate) ∧ s'.changes = s.changes := by
  obtain ⟨⟨answer, estate⟩, hstep, heq⟩ := Option.map_eq_some_iff.mp h
  cases heq
  exact ⟨hstep, rfl⟩

/-- A request leaves the service alone. -/
theorem ChangeOp.step_snow {o : SnowOp} {x : Except Exn o.Val}
    (h : ChangeOp.step site t ch s (.snow o) = some (x, s')) :
    s'.estate = s.estate ∧ o.step ch.2 s.changes = (x, s'.changes) := by
  have heq := Option.some_inj.mp h
  obtain ⟨hx, hs⟩ := Prod.mk.inj heq
  subst hs
  refine ⟨rfl, Prod.ext ?_ rfl⟩
  exact hx

/-- An event of the run. -/
abbrev ChangeEvent (site : Site) (group : String) (admits : ActionCall → Prop) :=
  System.Event (site.changeSystem group admits)

/-- The event is a step of the run. -/
def ChangeEvent.Happens (ev : ChangeEvent site group admits) : Prop :=
  ChangeOp.step site ev.thread ev.choice ev.before ev.op = some (ev.answer, ev.after)

/-- The event creates a change with this correlation. -/
def ChangeEvent.Creates (ev : ChangeEvent site group admits) (correlation : String) : Prop :=
  (∃ templateId fields, ev.op = ChangeOp.snow (.createChange templateId fields) ∧
    fields.correlationId = correlation) ∧ ev.after.changes ≠ ev.before.changes

/-- What a request does to the changes. -/
theorem SnowOp.step_cases {o : SnowOp} {r : Remote} {c c' : List ChangeRequest}
    {x : Except Exn o.Val} (h : o.step r c = (x, c')) :
    c' = c ∨ ∃ templateId fields, o = .createChange templateId fields ∧
      c' = c ++ [⟨r.ref, fields.correlationId⟩] := by
  have hlands : (o.effect r c).2 = c ∨ ∃ templateId fields, o = .createChange templateId fields ∧
      (o.effect r c).2 = c ++ [⟨r.ref, fields.correlationId⟩] := by
    cases o with
    | createChange templateId fields => exact .inr ⟨templateId, fields, rfl, rfl⟩
    | _ => exact .inl rfl
  have hc : c' = (o.step r c).2 := by rw [h]
  unfold step at hc
  split at hc
  · rw [hc]
    exact hlands
  · by_cases hland : r.landed = true
    · rw [hc, if_pos hland]
      exact hlands
    · rw [hc, if_neg hland]
      exact .inl rfl

/-- What a read of the changes is answered. -/
theorem SnowOp.find_answer {correlation : String} {r : Remote} {c c' : List ChangeRequest}
    {found : Option ChangeRef} (h : (SnowOp.findChange correlation).step r c = (.ok found, c')) :
    (∀ ref, found = some ref → ⟨ref, correlation⟩ ∈ c) ∧
      (found = none → ∀ row ∈ c, row.correlationId ≠ correlation) := by
  unfold step at h
  split at h
  · have hfound := Except.ok.inj (Prod.mk.inj h).1
    have hrows : (c.filter (·.correlationId = correlation))[
        r.pick % (c.filter (·.correlationId = correlation)).length]?.map (·.ref) = found := hfound
    constructor
    · rintro ref rfl
      obtain ⟨row, hrow, rfl⟩ := Option.map_eq_some_iff.mp hrows
      obtain ⟨hmem, hcorrelation⟩ := List.mem_filter.mp (List.mem_of_getElem? hrow)
      rw [← of_decide_eq_true hcorrelation]
      exact hmem
    · rintro rfl row hmem hcorrelation
      have hin : row ∈ c.filter (·.correlationId = correlation) :=
        List.mem_filter.mpr ⟨hmem, decide_eq_true hcorrelation⟩
      have hpos := List.length_pos_of_mem hin
      have hlt := Nat.mod_lt r.pick hpos
      rw [List.getElem?_eq_getElem hlt] at hrows
      cases hrows
  · cases h

/-- What a create is answered, if it says which record it made. -/
theorem SnowOp.create_answer {templateId : String} {fields : ChangeFields} {r : Remote}
    {c c' : List ChangeRequest} {ref : ChangeRef} (hne : ref.sysId ≠ "")
    (h : (SnowOp.createChange templateId fields).step r c = (.ok ref, c')) :
    ⟨ref, fields.correlationId⟩ ∈ c' := by
  unfold step at h
  split at h
  · obtain ⟨hanswer, hc⟩ := Prod.mk.inj h
    have hmade : (if r.silent = true then (⟨"", ""⟩ : ChangeRef) else r.ref) = ref :=
      Except.ok.inj hanswer
    have hadded : c ++ [⟨r.ref, fields.correlationId⟩] = c' := hc
    by_cases hsilent : r.silent = true
    · rw [if_pos hsilent] at hmade
      rw [← hmade] at hne
      exact absurd rfl hne
    · rw [if_neg hsilent] at hmade
      rw [← hadded, ← hmade]
      exact List.mem_append_right _ (List.mem_singleton.mpr rfl)
  · cases h

/-- What a step does to the changes. -/
theorem ChangeEvent.Happens.changes_cases {ev : ChangeEvent site group admits} (h : ev.Happens) :
    ev.after.changes = ev.before.changes ∨ ∃ templateId fields ref,
      ev.op = ChangeOp.snow (.createChange templateId fields) ∧
        ev.after.changes = ev.before.changes ++ [⟨ref, fields.correlationId⟩] := by
  obtain ⟨t, o, ch, before, answer, after⟩ := ev
  cases o with
  | here o => exact .inl (ChangeOp.step_here h).2
  | snow o =>
    rcases SnowOp.step_cases (ChangeOp.step_snow h).2 with hsame | ⟨templateId, fields, rfl, hadded⟩
    · exact .inl hsame
    · exact .inr ⟨templateId, fields, _, rfl, hadded⟩

/-- **What has been created stays.** -/
theorem ChangeEvent.Happens.changes_stay {ev : ChangeEvent site group admits} (h : ev.Happens) :
    ∀ c ∈ ev.before.changes, c ∈ ev.after.changes := by
  intro c hc
  rcases h.changes_cases with hsame | ⟨templateId, fields, ref, -, hadded⟩
  · rw [hsame]
    exact hc
  · rw [hadded]
    exact List.mem_append_left _ hc

/-- The service's side of a step. -/
theorem ChangeEvent.Happens.service {ev : ChangeEvent site group admits} (h : ev.Happens) :
    ev.after.estate = ev.before.estate ∨ ∃ e : site.Event, Site.Event.Happens e ∧
      ev.op = ChangeOp.here e.op ∧ e.before = ev.before.estate ∧ e.after = ev.after.estate := by
  obtain ⟨t, o, ch, before, answer, after⟩ := ev
  cases o with
  | here o =>
    have hstep := (ChangeOp.step_here h).1
    exact .inr ⟨⟨t, o, ch.1, before.estate, answer, after.estate⟩, hstep, rfl, rfl, rfl⟩
  | snow o => exact .inl (ChangeOp.step_snow h).1

/-- What is settled when a row is inserted stays. -/
theorem ChangeEvent.Happens.subjects {ev : ChangeEvent site group admits} (h : ev.Happens) :
    ev.before.estate.SubjectsStay ev.after.estate := by
  rcases h.service with hsame | ⟨e, he, -, hbefore, hafter⟩
  · rw [hsame]
    exact .refl _
  · rw [← hbefore, ← hafter]
    exact subjectsStay_step he

/-- What the database tells a coroutine is so. -/
theorem ChangeEvent.Happens.truthful {ev : ChangeEvent site group admits} (h : ev.Happens)
    (past : List ChangeCalls.Done) : Truthful past ⟨ev.op, ev.answer⟩ := by
  obtain ⟨t, o, ch, before, answer, after⟩ := ev
  rintro o' x heq c v r hdone htold
  cases heq
  cases hdone
  exact (DbCall.run_told (Op.step_ok (ChangeOp.step_here h).1) htold).2

/-! ## What is claimed -/

/-- The instance has at most one change with this correlation. -/
def AtMostOne (correlation : String) (changes : List ChangeRequest) : Prop :=
  (changes.filter (·.correlationId = correlation)).length ≤ 1

/-- **One change record per action**, from `s₀` on. -/
structure OneChange (s₀ s : Landscape) : Prop where
  /-- No correlation comes to have two changes. -/
  unique : ∀ correlation, AtMostOne correlation s₀.changes → AtMostOne correlation s.changes
  /-- The change that a row records is the one with its action's hash. -/
  recorded : ∀ id r, s.estate.db.actions.get? id = some r →
    r.changeSysId ≠ "" ∨ r.changeNumber ≠ "" →
      ⟨⟨r.changeSysId, r.changeNumber⟩, r.actionHash⟩ ∈ s.changes

/-- No change with this correlation has been created since the coroutine read that there was
none. -/
def Unraced (t : Nat) (correlation : String) (tr : List (ChangeEvent site group admits)) :
    Prop :=
  ∀ pre e post, tr = pre ++ e :: post → e.thread = t →
    (⟨e.op, e.answer⟩ : ChangeCalls.Done) = ⟨.snow (.findChange correlation), .ok none⟩ →
      ∀ e' ∈ post, ¬ ChangeEvent.Creates e' correlation

/-- The condition on a create. -/
def ChangeOp.unraced (t : Nat) (tr : List (ChangeEvent site group admits)) : ChangeOp → Prop
  | .snow (.createChange _ fields) => Unraced t fields.correlationId tr
  | _ => True

/-- Columns that are left as they are. -/
theorem Values.Unopened.with {v : Values} (h : v.Unopened) (r : ActionRow) :
    (r.with v).changeSysId = r.changeSysId ∧ (r.with v).changeNumber = r.changeNumber := by
  obtain ⟨hsysId, hnumber⟩ := h
  constructor
  · show v.changeSysId.getD r.changeSysId = r.changeSysId
    rw [hsysId]
    rfl
  · show v.changeNumber.getD r.changeNumber = r.changeNumber
    rw [hnumber]
    rfl

/-- **What a step records of a change**, against what was recorded before. -/
theorem recorded_step {ev : ChangeEvent site group admits} (hev : ev.Happens)
    {past : List ChangeCalls.Done} (hopening : Opening past ev.op) {id : Nat} {r' : ActionRow}
    (hr' : ev.after.estate.db.actions.get? id = some r')
    (hrecorded : r'.changeSysId ≠ "" ∨ r'.changeNumber ≠ "") :
    ∃ r, ev.before.estate.db.actions.get? id = some r ∧ r'.actionHash = r.actionHash ∧
      ((r'.changeSysId = r.changeSysId ∧ r'.changeNumber = r.changeNumber) ∨
        ∃ row ref, Learned past row ∧ row.id = id ∧ Answered row.actionHash ref past ∧
          r'.changeSysId = ref.sysId ∧ r'.changeNumber = ref.number) := by
  rcases hev.service with hsame | ⟨e, he, hop, hbefore, hafter⟩
  · rw [hsame] at hr'
    exact ⟨r', hr', rfl, .inl ⟨rfl, rfl⟩⟩
  rw [← hafter] at hr'
  rw [← hbefore]
  cases hr : e.before.db.actions.get? id with
  | none =>
    obtain ⟨d, payload, v, incidentId, -, rfl⟩ := he.row_added hr hr'
    rcases hrecorded with h | h <;> exact absurd rfl h
  | some r =>
    have hid := ActionTable.get?_id hr
    rcases he.row_moves hr hr' with rfl | ⟨c, v, hc, hmove⟩
    · exact ⟨r', rfl, rfl, .inl ⟨rfl, rfl⟩⟩
    cases hmove with
    | same => exact ⟨r', rfl, rfl, .inl ⟨rfl, rfl⟩⟩
    | noted event payload values =>
      refine ⟨r, rfl, rfl, ?_⟩
      have hnote := hopening.note r.id event payload values (by rw [hop, hc.1])
      rcases hnote with hunopened | ⟨row, ref, hlearned, hrow, hanswered, hsysId, hnumber⟩
      · exact .inl (hunopened.with r)
      · refine .inr ⟨row, ref, hlearned, hrow.trans hid, hanswered, ?_, ?_⟩
        · show values.changeSysId.getD r.changeSysId = ref.sysId
          rw [hsysId]
          rfl
        · show values.changeNumber.getD r.changeNumber = ref.number
          rw [hnumber]
          rfl
    | moved fromStatuses toStatus event payload values wake hfrom =>
      refine ⟨r, rfl, rfl, .inl ?_⟩
      have hunopened := hopening.transition r.id fromStatuses toStatus event payload values wake
        (by rw [hop, hc.1])
      exact hunopened.with r
    | begun localSwitch hs => exact ⟨r, rfl, rfl, .inl ⟨rfl, rfl⟩⟩
    | answered a hok htime => exact ⟨r, rfl, rfl, .inl ⟨rfl, rfl⟩⟩
    | expired a hok => exact ⟨r, rfl, rfl, .inl ⟨rfl, rfl⟩⟩

/-- A change that is answered for a correlation is among the changes. -/
theorem Answered.event {correlation : String} {ref : ChangeRef} {t : Nat}
    {tr : List (ChangeEvent site group admits)} (h : Answered correlation ref (System.own t tr))
    (htr : ∀ e ∈ tr, ChangeEvent.Happens e) : ∃ e ∈ tr, ⟨ref, correlation⟩ ∈ e.after.changes := by
  rcases h with h | ⟨templateId, fields, rfl, hne, h⟩
  · obtain ⟨ch, before, after, hmem⟩ := System.mem_own h
    have hev := htr _ hmem
    have hstep := (ChangeOp.step_snow hev).2
    exact ⟨_, hmem, hev.changes_stay _ ((SnowOp.find_answer hstep).1 ref rfl)⟩
  · obtain ⟨ch, before, after, hmem⟩ := System.mem_own h
    have hstep := (ChangeOp.step_snow (htr _ hmem)).2
    exact ⟨_, hmem, SnowOp.create_answer hne hstep⟩

/-- A row that was told of stood in the table. -/
theorem Learned.event {row : ActionRow} {t : Nat} {tr : List (ChangeEvent site group admits)}
    (h : Learned (System.own t tr) row) (htr : ∀ e ∈ tr, ChangeEvent.Happens e) :
    ∃ e ∈ tr, e.after.estate.db.actions.get? row.id = some row := by
  obtain ⟨c, v, hmem, htold⟩ := h
  obtain ⟨ch, before, after, hev⟩ := System.mem_own hmem
  exact ⟨_, hev, (DbCall.run_told (Op.step_ok (ChangeOp.step_here (htr _ hev)).1) htold).1⟩

theorem AtMostOne.snoc {correlation : String} {changes : List ChangeRequest} {c : ChangeRequest}
    (h : AtMostOne correlation changes)
    (hc : c.correlationId = correlation → ∀ x ∈ changes, x.correlationId ≠ correlation) :
    AtMostOne correlation (changes ++ [c]) := by
  unfold AtMostOne at h ⊢
  rw [List.filter_append, List.length_append]
  by_cases heq : c.correlationId = correlation
  · have hnone : changes.filter (·.correlationId = correlation) = [] :=
      List.filter_eq_nil_iff.mpr fun x hx hx' => hc heq x hx (of_decide_eq_true hx')
    rw [hnone]
    have hone := List.length_filter_le (fun x : ChangeRequest => x.correlationId = correlation) [c]
    have hlen : [c].length = 1 := rfl
    have hnil : ([] : List ChangeRequest).length = 0 := rfl
    omega
  · have hnone : [c].filter (·.correlationId = correlation) = [] :=
      List.filter_eq_nil_iff.mpr fun x hx hx' => heq (by
        rw [← List.mem_singleton.mp hx]
        exact of_decide_eq_true hx')
    rw [hnone]
    exact h

/-- **One change record per action**, in every run in which no attempt creates a change between
another's read that there was none and that one's create. -/
theorem one_change (site : Site) (group : String) (admits : ActionCall → Prop) (s : Landscape)
    (hs : s.estate.Fresh)
    (d : Config ChangeCalls Exn (Landscape × List (ChangeEvent site group admits)))
    (hd : (site.changeSystem group admits).recorded.Reaches
      (fun t o _ s => ChangeOp.unraced t s.2 o) (Config.idle (s, [])) d) :
    OneChange s d.shared.1 := by
  have heach := System.recorded_each hd
  have hevent : ∀ ev ∈ d.shared.2, ChangeEvent.Happens ev := by
    intro ev hev
    obtain ⟨pre, post, hsplit⟩ := List.append_of_mem hev
    exact (heach pre ev post hsplit).2
  have hopening := System.recorded_followsFor (fun _ hp => changeSystem_opening hp) hd
    fun pre ev post hsplit => ChangeEvent.Happens.truthful (hevent ev (by simp [hsplit])) _
  have hsubjects := System.recorded_between (P := fun _ => True)
    (R := fun a b : Landscape => a.estate.SubjectsStay b.estate) (fun _ => .refl _)
    (fun _ _ _ => Estate.SubjectsStay.trans) (fun p _ => p.issues_any)
    (fun ev _ hev => ChangeEvent.Happens.subjects hev) hd
  have hstay := System.recorded_between (P := fun _ => True)
    (R := fun a b : Landscape => ∀ c ∈ a.changes, c ∈ b.changes) (fun _ _ h => h)
    (fun _ _ _ hab hbc c hc => hbc c (hab c hc)) (fun p _ => p.issues_any)
    (fun ev _ hev => ChangeEvent.Happens.changes_stay hev) hd
  have hmade := System.recorded_induction (I := fun s' tr => ∀ c ∈ s'.changes, c ∈ s.changes ∨
    ∃ e ∈ tr, ChangeEvent.Creates e c.correlationId ∧ c ∈ e.after.changes) hd
    (fun c hc => .inl hc) fun pre ev post hsplit h c hc => by
      have hearlier : ∀ c ∈ ev.before.changes, c ∈ s.changes ∨
          ∃ e ∈ pre ++ [ev], ChangeEvent.Creates e c.correlationId ∧ c ∈ e.after.changes := by
        intro c hc
        rcases h c hc with hstart | ⟨e, he, hcreated⟩
        · exact .inl hstart
        · exact .inr ⟨e, List.mem_append_left _ he, hcreated⟩
      rcases (hevent ev (by simp [hsplit])).changes_cases with hsame | ⟨templateId, fields, ref, hop,
        hadded⟩
      · exact hearlier c (hsame ▸ hc)
      · have hin := hc
        rw [hadded] at hin
        rcases List.mem_append.mp hin with hin | hin
        · exact hearlier c hin
        · cases List.mem_singleton.mp hin
          have hne : ev.after.changes ≠ ev.before.changes := by
            rw [hadded]
            simp
          exact .inr ⟨ev, List.mem_append_right _ (List.mem_singleton.mpr rfl),
            ⟨⟨templateId, fields, hop, rfl⟩, hne⟩, hc⟩
  refine (System.recorded_induction (I := fun s' _ => OneChange s s') hd ⟨fun _ h => h, ?_⟩
    fun pre ev post hsplit h => ⟨?_, ?_⟩).1
  · intro id r hr
    rw [ActionTable.get?, hs.actions] at hr
    cases hr
  · intro correlation hstart
    rcases (hevent ev (by simp [hsplit])).changes_cases with hsame | ⟨templateId, fields, ref, hop,
      hadded⟩
    · rw [hsame]
      exact h.unique correlation hstart
    · rw [hadded]
      refine (h.unique correlation hstart).snoc ?_
      rintro rfl c hc hcorrelation
      -- The attempt has read that there is none, and none has been created since.
      have hread := (hopening pre ev post hsplit).create templateId fields hop
      obtain ⟨ch, before, after, hmem⟩ := System.mem_own hread
      obtain ⟨p, q, hpre⟩ := List.append_of_mem hmem
      have hwhole : d.shared.2 = p ++ ⟨ev.thread, .snow (.findChange fields.correlationId), ch,
          before, .ok none, after⟩ :: (q ++ ev :: post) := by
        rw [hsplit, hpre, List.append_assoc, List.cons_append]
      have hfound : ChangeEvent.Happens (⟨ev.thread, .snow (.findChange fields.correlationId), ch,
          before, .ok none, after⟩ : ChangeEvent site group admits) := hevent _ (by simp [hwhole])
      have hnone := (SnowOp.find_answer (ChangeOp.step_snow hfound).2).2 rfl
      have hquiet := (heach pre ev post hsplit).1
      rw [hop] at hquiet
      have hunraced := hquiet p _ q hpre rfl rfl
      rcases (hmade.2 pre ev post hsplit) c hc with hstart | ⟨e, he, hcreates, hce⟩
      · exact hnone c ((hstay p _ _ hwhole).1 c hstart) hcorrelation
      rw [hpre] at he
      rcases List.mem_append.mp he with he | he
      · exact hnone c ((hstay p _ _ hwhole).2 e he c hce) hcorrelation
      rcases List.mem_cons.mp he with rfl | he
      · obtain ⟨⟨_, _, hcreate, -⟩, -⟩ := hcreates
        cases hcreate
      · rw [hcorrelation] at hcreates
        exact hunraced e he hcreates
  · intro id r' hr' hrecorded
    have hev := hevent ev (by simp [hsplit])
    have hpre : ∀ e ∈ pre, ChangeEvent.Happens e := fun e he => hevent e (by simp [hsplit, he])
    obtain ⟨r, hr, hhash, ⟨hsysId, hnumber⟩ | ⟨row, ref, hlearned, rfl, hanswered, hsysId, hnumber⟩⟩ :=
      recorded_step hev (hopening pre ev post hsplit) hr' hrecorded
    · rw [hsysId, hnumber] at hrecorded ⊢
      rw [hhash]
      exact hev.changes_stay _ (h.recorded id r hr hrecorded)
    · -- The row is the one that the change was opened for.
      obtain ⟨e, he, hrow⟩ := hlearned.event hpre
      obtain ⟨r₁, hr₁, hsubject⟩ := (hsubjects pre ev post hsplit).2 e he row.id row hrow
      obtain rfl : r = r₁ := Option.some_inj.mp (hr.symm.trans hr₁)
      have hsame : r.subject.actionHash = row.subject.actionHash := by rw [hsubject]
      have hsame' : r.actionHash = row.actionHash := hsame
      obtain ⟨e', he', hchange⟩ := hanswered.event hpre
      rw [hsysId, hnumber, hhash, hsame']
      exact hev.changes_stay _ ((hstay pre ev post hsplit).2 e' he' _ hchange)

end

/-! ## Two attempts at one action -/

/-- The system of the sample deployment. -/
abbrev jobChanges : System ChangeCalls Exn Landscape := sampleSite.changeSystem "" fun _ => True

/-- An attempt as a coroutine. -/
def openingPerform : ChangeProg Unit :=
  ((ActionService.perform sampleSite sampleCall).bind fun _ => .ret ()).translate
    (ActionService.carriedOut sampleSite "")

/-- Everything goes well, and a create makes the change with this number. -/
def answering (number : String) : Choice × Remote :=
  (smooth, { ref := ⟨"id" ++ number, number⟩, sysId := some "template" })

/-- Some steps of a thread. -/
def stepsOf (t n : Nat) (number : String) : List jobChanges.recorded.Move :=
  List.replicate n (.op t (answering number))

theorem openingPerform_entry : jobChanges.recorded.Entry openingPerform :=
  ⟨_, Pipeline.perform sampleCall trivial, rfl⟩

/-- The hash of the action. -/
def jobHash : String :=
  actionHash sampleSite sampleCall.incident sampleCall.sop "JOB_RESTART" sampleCall.step.parameters

/-- The first attempt dies when the change is created; the second one finds it. -/
def createdAndFound : List jobChanges.recorded.Move :=
  (.start openingPerform :: stepsOf 0 11 "CHG1") ++ (.start openingPerform :: stepsOf 1 3 "CHG2")

/-- Both attempts read that there is no change, and both create one. -/
def createdTwice : List jobChanges.recorded.Move :=
  ((.start openingPerform :: stepsOf 0 9 "CHG1") ++
    (.start openingPerform :: stepsOf 1 6 "CHG2")) ++ stepsOf 0 4 "CHG1"

theorem createdAndFound_starts : jobChanges.recorded.Starts createdAndFound :=
  .append (.start openingPerform_entry .ops) (.start openingPerform_entry .ops)

theorem createdTwice_starts : jobChanges.recorded.Starts createdTwice :=
  .append (.append (.start openingPerform_entry .ops) (.start openingPerform_entry .ops)) .ops

/-- A check of the condition, for runs with one create. -/
def ChangeOp.isCreate : ChangeOp → Bool
  | .snow (.createChange ..) => true
  | _ => false

theorem unraced_of_first {site : Site} {group : String} {admits : ActionCall → Prop} (t : Nat)
    {tr : List (ChangeEvent site group admits)} {o : ChangeOp}
    (h : (!o.isCreate || tr.all fun e => !ChangeOp.isCreate e.op) = true) :
    o.unraced t tr := by
  cases o with
  | here o => trivial
  | snow o =>
    cases o with
    | createChange templateId fields =>
      intro pre e post hsplit _ _ e' he' hcreates
      obtain ⟨⟨templateId', fields', hop, -⟩, -⟩ := hcreates
      have hall := List.all_eq_true.mp h e' (by simp [hsplit, he'])
      rw [hop] at hall
      cases hall
    | _ => trivial

/-- A change that one attempt created and another one found. -/
theorem one_change_sample :
    ∃ d : Config ChangeCalls Exn (Landscape × List (ChangeEvent sampleSite "" fun _ => True)),
      d.shared.1.estate.db.actions.rows.map (·.changeNumber) = ["CHG1"] ∧
        OneChange { estate := sampleEstate } d.shared.1 := by
  have hplay : ((jobChanges.recorded.playIf
      (fun _ o _ s => !ChangeOp.isCreate o || s.2.all fun e => !ChangeOp.isCreate e.op)
      (Config.idle ({ estate := sampleEstate }, [])) createdAndFound).map fun d =>
        d.shared.1.estate.db.actions.rows.map (·.changeNumber)) = some ["CHG1"] := by
    decide +kernel
  obtain ⟨d, hd, hends⟩ := Option.map_eq_some_iff.mp hplay
  exact ⟨d, hends, one_change sampleSite "" (fun _ => True) { estate := sampleEstate }
    sampleEstate_fresh d (System.playIf_reaches _ (fun t _ _ _ h => unraced_of_first t h)
      createdAndFound_starts hd)⟩

/-- **One action has two changes.**  Both attempts read before either creates, so each of them
creates one, and the row records the last. -/
theorem two_changes : ¬ ∀ (site : Site) (group : String) (admits : ActionCall → Prop)
    (s : Landscape), s.estate.Fresh →
      ∀ d : Config ChangeCalls Exn (Landscape × List (ChangeEvent site group admits)),
        (site.changeSystem group admits).recorded.Reaches (System.anyStep _) (Config.idle (s, [])) d →
          OneChange s d.shared.1 := by
  intro hall
  have hplay : ((jobChanges.recorded.play (Config.idle ({ estate := sampleEstate }, []))
      createdTwice).map fun d =>
        (d.shared.1.changes.filter (·.correlationId = jobHash)).map (·.ref.number)) =
      some ["CHG2", "CHG1"] := by
    decide +kernel
  obtain ⟨d, hd, hends⟩ := Option.map_eq_some_iff.mp hplay
  have hone := hall sampleSite "" (fun _ => True) { estate := sampleEstate } sampleEstate_fresh d
    (System.play_reaches _ createdTwice_starts hd)
  have hmost := hone.unique jobHash (by simp [AtMostOne])
  have hlength := congrArg List.length hends
  rw [List.length_map] at hlength
  have htwo : (d.shared.1.changes.filter (·.correlationId = jobHash)).length = 2 := hlength
  have hle : (d.shared.1.changes.filter (·.correlationId = jobHash)).length ≤ 1 := hmost
  omega

end L1Agent
