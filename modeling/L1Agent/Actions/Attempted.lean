import L1Agent.Actions.Pipeline
import L1Agent.Library.Answers
import L1Agent.Service.Events

/-! # What an attempt knows of its row

An attempt at a step acts on a row that a transaction has told it of.  Between one
transaction and the next other coroutines may move the row, but a transaction tells of the
row that was asked for, as it then is.  The part of an attempt before it acts is walked through
here once, for every statement about attempts (`follows_obtained`).

`DbCall.run_told` is the fact about transactions and `honest_event` what it makes of the events of
a run.  `Obtained` lists the ways in which an attempt comes by its row, and
`followsFor_obtainRow`, `followsFor_continueStep` and `followsFor_perform` follow an attempt along
them; what it does then is left to the statement that uses them.
-/
namespace L1Agent
open Interleaving

/-! ## What the transactions tell -/

/-- The row that a transaction returns. -/
def DbCall.told : (c : DbCall) → c.Val → Option ActionRow
  | .find .., found => found
  | .get _, row => some row
  | .note .., row => some row
  | .recordDecision .., row => some row
  | .transition .., moved => moved
  | .authoriseExecution .., .ok row => some row
  | _, _ => none

/-- The action that a transaction is asked about by its key. -/
def DbCall.about : DbCall → Option Nat
  | .get id | .note id .. | .transition id .. | .authoriseExecution id _ => some id
  | _ => none

/-- What is so of every answer. -/
structure DbCall.Telling (c : DbCall) (r : ActionRow) : Prop where
  about : ∀ id, c.about = some id → r.id = id
  moved : ∀ id fromStatuses toStatus event payload values wake,
    c = .transition id fromStatuses toStatus event payload values wake → r.status = toStatus
  begun : ∀ id localSwitch, c = .authoriseExecution id localSwitch → r.status = .executing
  recorded : ∀ d payload, c = .recordDecision d payload → r.actionHash = d.actionHash

section
variable {site : Site} {now pick : Nat} {c : DbCall} {db db' : Db} {v : c.Val} {r : ActionRow}

/-- **A transaction tells of the row as it leaves it.** -/
theorem DbCall.run_told (h : c.run site now pick db = .ok (v, db')) (hr : c.told v = some r) :
    db'.actions.get? r.id = some r ∧ c.Telling r := by
  cases c with
  | find runId stepId =>
    obtain ⟨rfl, rfl⟩ := Prod.mk.inj (Except.ok.inj h)
    have hfound : findAction runId stepId db = some r := hr
    exact ⟨ActionTable.get?_of_mem (List.mem_of_find?_eq_some hfound), by rintro _ ⟨⟩,
      by rintro _ _ _ _ _ _ _ ⟨⟩, by rintro _ _ ⟨⟩, by rintro _ _ ⟨⟩⟩
  | get id =>
    simp only [run, getAction] at h
    split at h
    · cases h
    · rename_i row hrow
      cases h
      cases hr
      have hid := ActionTable.get?_id hrow
      refine ⟨?_, fun _ hx => hid.trans (Option.some_inj.mp hx), by rintro _ _ _ _ _ _ _ ⟨⟩,
        by rintro _ _ ⟨⟩, by rintro _ _ ⟨⟩⟩
      rw [hid]
      exact hrow
  | note id event payload values =>
    obtain ⟨x, actions, audit, hx, hput, rfl, rfl⟩ := noteAction_ok h
    cases hr
    have hid := ActionTable.get?_id hx
    subst hid
    refine ⟨?_, fun _ hy => Option.some_inj.mp hy, by rintro _ _ _ _ _ _ _ ⟨⟩,
      by rintro _ _ ⟨⟩, by rintro _ _ ⟨⟩⟩
    show actions.get? x.id = some (x.with values)
    exact (ActionTable.put_get? hput hx x.id).trans (if_pos rfl)
  | recordDecision d payload =>
    obtain ⟨run, actions, audit, -, hrow, hadd, rfl⟩ := recordDecision_ok h
    cases hr
    refine ⟨?_, by rintro _ ⟨⟩, by rintro _ _ _ _ _ _ _ ⟨⟩, by rintro _ _ ⟨⟩, ?_⟩
    · exact (ActionTable.add_get? hadd r.id).trans (if_pos rfl)
    · rintro _ _ ⟨⟩
      rw [hrow]
      rfl
  | transition id fromStatuses toStatus event payload values wake =>
    rcases transitionAction_ok h with ⟨rfl, -, -⟩ | ⟨x, actions, audit, hx, -, hput, rfl, rfl⟩
    · cases hr
    · cases hr
      have hid := ActionTable.get?_id hx
      subst hid
      refine ⟨?_, fun _ hy => Option.some_inj.mp hy, ?_, by rintro _ _ ⟨⟩, by rintro _ _ ⟨⟩⟩
      · show actions.get? x.id = some (x.moved now toStatus values)
        exact (ActionTable.put_get? hput hx x.id).trans (if_pos rfl)
      · rintro _ _ _ _ _ _ _ ⟨⟩
        rfl
  | authoriseExecution id localSwitch =>
    rcases authoriseExecution_ok h with ⟨-, why, rfl⟩ | ⟨x, actions, audit, hx, -, -, hput, rfl, rfl⟩
    · cases hr
    · cases hr
      have hid := ActionTable.get?_id hx
      subst hid
      refine ⟨?_, fun _ hy => Option.some_inj.mp hy, by rintro _ _ _ _ _ _ _ ⟨⟩, ?_,
        by rintro _ _ ⟨⟩⟩
      · show actions.get? x.id = some (x.begun now)
        exact (ActionTable.put_get? hput hx x.id).trans (if_pos rfl)
      · rintro _ _ ⟨⟩
        rfl
  | _ => cases hr

end

/-- What the database tells a coroutine is so. -/
def Honest (_ : List Calls.Done) (d : Calls.Done) : Prop :=
  ∀ (c : DbCall) (v : c.Val) (r : ActionRow), d = ⟨.db c, .ok v⟩ → c.told v = some r → c.Telling r

/-- A transaction of the past has told of the row. -/
def Reported (past : List Calls.Done) (r : ActionRow) : Prop :=
  ∃ (c : DbCall) (v : c.Val), (⟨.db c, .ok v⟩ : Calls.Done) ∈ past ∧ c.told v = some r

theorem Reported.snoc {past : List Calls.Done} {r : ActionRow} (h : Reported past r)
    (d : Calls.Done) : Reported (past ++ [d]) r := by
  obtain ⟨c, v, hmem, htold⟩ := h
  exact ⟨c, v, List.mem_append_left _ hmem, htold⟩

theorem reported_last {past : List Calls.Done} {c : DbCall} {v : c.Val} {r : ActionRow}
    (h : c.told v = some r) : Reported (past ++ [⟨.db c, .ok v⟩]) r :=
  ⟨c, v, List.mem_append_right _ (List.mem_singleton.mpr rfl), h⟩

/-! ## Recorded runs of the pipeline -/

section
variable {site : Site} {admits : ActionCall → Prop}

/-- An event of the pipeline as one of the deployment: the operations are the same. -/
abbrev Site.event (ev : System.Event (site.pipeline admits)) : site.Event :=
  ⟨ev.thread, ev.op, ev.choice, ev.before, ev.answer, ev.after⟩

/-- **What an event of a run tells is so.** -/
theorem honest_event {ev : System.Event (site.pipeline admits)} (hev : (Site.event ev).Happens)
    (past : List Calls.Done) : Honest past ⟨ev.op, ev.answer⟩ := by
  obtain ⟨t, o, ch, before, answer, after⟩ := ev
  rintro c v r heq htold
  cases heq
  exact (DbCall.run_told (Op.step_ok hev) htold).2

/-- A row that was reported stood in the table. -/
theorem Reported.event {t : Nat} {tr : List (System.Event (site.pipeline admits))} {r : ActionRow}
    (htr : ∀ ev ∈ tr, (Site.event ev).Happens) (h : Reported (System.own t tr) r) :
    ∃ ev ∈ tr, ev.after.db.actions.get? r.id = some r := by
  obtain ⟨c, v, hmem, htold⟩ := h
  obtain ⟨ch, before, after, hev⟩ := System.mem_own hmem
  have hstep := htr _ hev
  exact ⟨_, hev, (DbCall.run_told (Op.step_ok hstep) htold).1⟩

end

/-! ## The rules for one operation -/

section
variable {A : List Calls.Done → Calls.Done → Prop} {Ok : List Calls.Done → Op → Prop}
  {past : List Calls.Done} {α : Type} {o : Op}

/-- The rule for an operation that is not the last one. -/
theorem followsFor_ask {f : o.Val → Prog α} {Q : List Calls.Done → Except Exn α → Prop}
    (hok : Ok past o)
    (herror : ∀ e, A past ⟨o, .error e⟩ → Q (past ++ [⟨o, .error e⟩]) (.error e))
    (h : ∀ v, A past ⟨o, .ok v⟩ → (f v).FollowsFor A Ok (past ++ [⟨o, .ok v⟩]) Q) :
    ((ask o).bind f).FollowsFor A Ok past Q := by
  refine ⟨hok, fun answer hanswer => ?_⟩
  cases answer with
  | error e => exact herror e hanswer
  | ok v => exact h v hanswer

/-- The rule for an operation by itself. -/
theorem followsFor_ask_only {Q : List Calls.Done → Except Exn o.Val → Prop} (hok : Ok past o)
    (h : ∀ x, A past ⟨o, x⟩ → Q (past ++ [⟨o, x⟩]) x) : (ask o).FollowsFor A Ok past Q := by
  refine ⟨hok, fun answer hanswer => ?_⟩
  cases answer with
  | error e => exact h _ hanswer
  | ok v => exact h _ hanswer

end

/-! ## Before an attempt acts -/

/-- What a decision of the attempt says. -/
structure ActionCall.Decides (site : Site) (call : ActionCall) (capability : Capability)
    (d : Decision) : Prop where
  hash : d.actionHash = actionHash site call.incident call.sop capability.id call.step.parameters
  capabilityId : d.capabilityId = capability.id
  parameters : d.parameters = call.step.parameters
  digest : d.callDigest = callDigest site.sha capability.id call.step.parameters
  status : ∃ verdict, d.status = verdictStatus verdict

/-- What is recorded of a change is of the one that was opened for the row. -/
def Opens (past : List Calls.Done) (id : Nat) (values : Values) : Prop :=
  ∃ row sysId ref, (⟨.openChange row sysId, .ok ref⟩ : Calls.Done) ∈ past ∧ Reported past row ∧
    row.id = id ∧ values.changeSysId = some ref.sysId ∧ values.changeNumber = some ref.number

/-- The operations by which an attempt comes by its row, after what it has done. -/
def Op.early (site : Site) (call : ActionCall) (capability : Capability)
    (past : List Calls.Done) : Op → Prop
  | .db c => match c with
    | .find .. | .get _ | .getPolicy | .situation .. | .switchesOn => True
    | .note id _ _ values => values.Unopened ∨ Opens past id values
    | .recordDecision d _ => call.Decides site capability d
    | .transition _ fromStatuses toStatus _ _ values _ =>
      ((fromStatuses = ActionService.undone ∧ (toStatus = .invalid ∨ toStatus = .denied)) ∨
        (fromStatuses = [.pending] ∧ toStatus = .expired)) ∧ values.Unopened
    | _ => False
  | .openChange row _ => Reported past row
  | .utcnow | .localSwitch | .refusals .. | .requestChangeApproval .. => True
  | _ => False

/-- **How an attempt came by its row.** -/
inductive Obtained (site : Site) (call : ActionCall) (capability : Capability)
    (past : List Calls.Done) (row : ActionRow) : Prop
  /-- It was there, and is for the same action, or has ended. -/
  | found (h : row.actionHash =
      actionHash site call.incident call.sop capability.id call.step.parameters ∨
        row.status.isFinal = true)
  /-- It was there for another action, and has been ended. -/
  | ended (h : row.status = .invalid)
  /-- It was there for another action, and another attempt moved it first. -/
  | overtaken (row₀ : ActionRow) (id : Nat) (event : String) (payload : List (String × Json))
      (values : Values) (wake : Bool) (pre post : List Calls.Done) (hreported : Reported pre row₀)
      (hid : row₀.id = id)
      (h : past = pre ++ (⟨.db (.transition id ActionService.undone .invalid event payload values
        wake), .ok none⟩ : Calls.Done) :: ⟨.db (.get id), .ok row⟩ :: post)
  /-- It is the record of the attempt's own decision. -/
  | recorded (d : Decision) (payload : List (String × Json)) (hd : call.Decides site capability d)
      (h : (⟨.db (.recordDecision d payload), .ok row⟩ : Calls.Done) ∈ past)
  /-- Another attempt recorded its decision first. -/
  | raced (d : Decision) (payload : List (String × Json)) (e : Exn) (runId : Nat) (stepId : String)
      (hd : call.Decides site capability d) (pre post : List Calls.Done)
      (h : past = pre ++ (⟨.db (.recordDecision d payload), .error e⟩ : Calls.Done) ::
        ⟨.db (.find runId stepId), .ok (some row)⟩ :: post)

theorem Obtained.snoc {site : Site} {call : ActionCall} {capability : Capability}
    {past : List Calls.Done} {row : ActionRow} (h : Obtained site call capability past row)
    (d : Calls.Done) : Obtained site call capability (past ++ [d]) row := by
  cases h with
  | found h => exact .found h
  | ended h => exact .ended h
  | overtaken row₀ id event payload values wake pre post hreported hid h =>
    exact .overtaken row₀ id event payload values wake pre (post ++ [d]) hreported hid (by simp [h])
  | recorded d' payload hd h => exact .recorded d' payload hd (List.mem_append_left _ h)
  | raced d' payload e runId stepId hd pre post h =>
    exact .raced d' payload e runId stepId hd pre (post ++ [d]) (by simp [h])

/-- What the attempt goes on with is the same row, which it may have seen anew. -/
structure Kept (past : List Calls.Done) (row row' : ActionRow) : Prop where
  id_eq : row'.id = row.id
  seen : row' = row ∨ Reported past row'

theorem Kept.refl (past : List Calls.Done) (row : ActionRow) : Kept past row row := ⟨rfl, .inl rfl⟩

theorem Kept.trans {past : List Calls.Done} {row row' row'' : ActionRow} (h : Kept past row row')
    (h' : Kept past row' row'') : Kept past row row'' := by
  refine ⟨h'.id_eq.trans h.id_eq, ?_⟩
  rcases h'.seen with rfl | hreported
  · exact h.seen
  · exact .inr hreported

theorem kept_growing (row row' : ActionRow) :
    Program.Growing fun past : List Calls.Done => Kept past row row' :=
  fun _ d h => ⟨h.id_eq, h.seen.imp_right fun hreported => hreported.snoc d⟩

namespace ActionService
variable {site : Site} {call : ActionCall} {capability : Capability}
  {A : List Calls.Done → Calls.Done → Prop} {Ok : List Calls.Done → Op → Prop}
  {F : List Calls.Done → Prop} {past : List Calls.Done}

/-- An action that is not authorised is stopped. -/
theorem early_notAuthorised (why : String) : (notAuthorised why).Early := by
  unfold notAuthorised
  split
  · exact early_mk _ _ (by decide)
  split
  · exact early_mk _ _ (by decide)
  · exact early_mk _ _ (by decide)

/-- What the early operations keep, and are allowed under. -/
structure Early (site : Site) (call : ActionCall) (capability : Capability)
    (A : List Calls.Done → Calls.Done → Prop) (Ok : List Calls.Done → Op → Prop)
    (F : List Calls.Done → Prop) : Prop where
  ok : ∀ past o, F past → o.early site call capability past → Ok past o
  keep : ∀ past (d : Calls.Done), F past → Op.early site call capability past d.op → A past d →
    F (past ++ [d])
  honest : ∀ past d, A past d → Honest past d

/-- The rule for an early operation. -/
theorem Early.ask {α : Type} (hE : Early site call capability A Ok F) {o : Op} {f : o.Val → Prog α}
    {Q : List Calls.Done → Except Exn α → Prop} (hF : F past) (ho : o.early site call capability past)
    (herror : ∀ e, F (past ++ [⟨o, .error e⟩]) → Q (past ++ [⟨o, .error e⟩]) (.error e))
    (h : ∀ v, F (past ++ [⟨o, .ok v⟩]) → Honest past ⟨o, .ok v⟩ →
      (f v).FollowsFor A Ok (past ++ [⟨o, .ok v⟩]) Q) :
    ((L1Agent.ask o).bind f).FollowsFor A Ok past Q :=
  followsFor_ask (hE.ok past o hF ho) (fun e he => herror e (hE.keep past ⟨o, .error e⟩ hF ho he))
    fun v hv => h v (hE.keep past ⟨o, .ok v⟩ hF ho hv) (hE.honest _ _ hv)

/-- Something that stays true may be kept in mind. -/
theorem Early.and (hE : Early site call capability A Ok F) {G : List Calls.Done → Prop}
    (hG : Program.Growing G) : Early site call capability A Ok fun past => F past ∧ G past where
  ok past o hF ho := hE.ok past o hF.1 ho
  keep past d hF ho hd := ⟨hE.keep past d hF.1 ho hd, hG past d hF.2⟩
  honest := hE.honest

/-- How an action was moved, or found when it could not be. -/
structure Finished (past past' : List Calls.Done) (row : ActionRow)
    (fromStatuses : List ActionStatus) (f : Finish) (row' : ActionRow) : Prop where
  id_eq : row'.id = row.id
  reported : Reported past' row'
  how : row'.status = f.toStatus ∨ ∃ event payload values wake,
    past' = past ++ [(⟨.db (.transition row.id fromStatuses f.toStatus event payload values wake),
      .ok none⟩ : Calls.Done), ⟨.db (.get row.id), .ok row'⟩]

theorem followsFor_finish (hE : Early site call capability A Ok F) (hF : F past) (row : ActionRow)
    {fromStatuses : List ActionStatus} {f : Finish}
    (hearly : ∀ event payload values wake, values.Unopened → Op.early site call capability past
      (.db (.transition row.id fromStatuses f.toStatus event payload values wake))) :
    (finish row fromStatuses f).FollowsFor A Ok past fun past' r =>
      F past' ∧ ∀ row', r = .ok row' → Finished past past' row fromStatuses f row' := by
  refine hE.ask hF (hearly _ _ _ _ ⟨rfl, rfl⟩) (fun e hF' => ⟨hF', fun _ h => nomatch h⟩)
    fun moved hF' hhonest => ?_
  cases moved with
  | some row' =>
    refine ⟨hF', fun x hx => ?_⟩
    cases hx
    have htelling := hhonest _ _ row' rfl rfl
    exact ⟨htelling.about _ rfl, reported_last rfl, .inl (htelling.moved _ _ _ _ _ _ _ rfl)⟩
  | none =>
    refine followsFor_ask_only (hE.ok _ _ hF' trivial) fun x hx => ?_
    refine ⟨hE.keep _ _ hF' trivial hx, fun row' hrow => ?_⟩
    subst hrow
    have htelling := hE.honest _ _ hx _ _ row' rfl rfl
    exact ⟨htelling.about _ rfl, reported_last rfl, .inr ⟨_, _, _, _, List.append_assoc ..⟩⟩

/-- What an attempt knows when it has its row. -/
structure Has (site : Site) (call : ActionCall) (capability : Capability)
    (past : List Calls.Done) (row : ActionRow) : Prop where
  obtained : Obtained site call capability past row
  reported : Reported past row

theorem followsFor_record (hE : Early site call capability A Ok F) (hF : F past) {d : Decision}
    (hd : call.Decides site capability d) (autonomy : Autonomy) :
    (record d autonomy).FollowsFor A Ok past fun past' r =>
      F past' ∧ ∀ row, r = .ok (some row) → Has site call capability past' row := by
  let o : Op := .db (.recordDecision d (decisionPayload d autonomy))
  refine Program.FollowsFor.bind (Program.FollowsFor.attempt ?_)
  refine followsFor_ask_only (o := o) (hE.ok _ o hF hd) fun x hx => ?_
  have hF' := hE.keep past ⟨o, x⟩ hF hd hx
  cases x with
  | ok row =>
    refine ⟨hF', fun row' hrow => ?_⟩
    cases hrow
    exact ⟨.recorded d _ hd (List.mem_append_right _ (List.mem_singleton.mpr rfl)),
      reported_last rfl⟩
  | error e =>
    refine Program.FollowsFor.ite (fun _ => ?_) fun _ => ⟨hF', fun _ h => nomatch h⟩
    refine followsFor_ask_only (hE.ok _ _ hF' trivial) fun x hx' => ?_
    refine ⟨hE.keep _ _ hF' trivial hx', fun row hrow => ?_⟩
    subst hrow
    exact ⟨.raced d _ e d.runId d.stepId hd past [] (List.append_assoc ..), reported_last rfl⟩

theorem followsFor_killSwitches (hE : Early site call capability A Ok F) (hF : F past) :
    killSwitches.FollowsFor A Ok past fun past' _ => F past' := by
  refine hE.ask hF trivial (fun e hF' => hF') fun on hF' _ => ?_
  exact hE.ask hF' trivial (fun e hF'' => hF'') fun file hF'' _ => hF''

theorem followsFor_decide (hE : Early site call capability A Ok F) (hF : F past) (runId : Nat) :
    (decide site call capability runId
      (actionHash site call.incident call.sop capability.id call.step.parameters)).FollowsFor A Ok
        past fun past' r => F past' ∧
          ∀ row, r = .ok (some row) → Has site call capability past' row := by
  refine hE.ask hF trivial (fun e hF' => ⟨hF', fun _ h => nomatch h⟩) fun policy hF _ => ?_
  refine hE.ask hF trivial (fun e hF' => ⟨hF', fun _ h => nomatch h⟩) fun found hF _ => ?_
  refine hE.ask hF trivial (fun e hF' => ⟨hF', fun _ h => nomatch h⟩) fun now hF _ => ?_
  refine Program.FollowsFor.bind ((followsFor_killSwitches hE hF).mono fun past' r hF => ?_)
  cases r with
  | error e => exact ⟨hF, fun _ h => nomatch h⟩
  | ok on =>
    refine hE.ask hF trivial (fun e hF' => ⟨hF', fun _ h => nomatch h⟩) fun refusals hF _ => ?_
    exact followsFor_record hE hF ⟨rfl, rfl, rfl, rfl, _, rfl⟩ _

/-- **How an attempt comes by its row.** -/
theorem followsFor_obtainRow (hE : Early site call capability A Ok F) (hF : F past) (runId : Nat) :
    (obtainRow site call capability runId).FollowsFor A Ok past fun past' r =>
      F past' ∧ ∀ row, r = .ok (some row) → Has site call capability past' row := by
  refine hE.ask hF trivial (fun e hF' => ⟨hF', fun _ h => nomatch h⟩) fun found hF _ => ?_
  cases found with
  | none => exact followsFor_decide hE hF runId
  | some row =>
    refine Program.FollowsFor.ite (fun _ => ?_) fun hsame => ?_
    · refine Program.FollowsFor.bind ((followsFor_finish hE hF row fun _ _ _ _ hv =>
        ⟨.inl ⟨rfl, .inl rfl⟩, hv⟩).mono fun past' r hr => ?_)
      cases r with
      | error e => exact ⟨hr.1, fun _ h => nomatch h⟩
      | ok row' =>
        refine ⟨hr.1, fun x hx => ?_⟩
        cases hx
        obtain ⟨-, hreported, hstatus | ⟨event, payload, values, wake, hpast⟩⟩ := hr.2 row' rfl
        · exact ⟨.ended hstatus, hreported⟩
        · exact ⟨.overtaken row row.id event payload values wake _ [] (reported_last rfl) rfl hpast,
            hreported⟩
    · refine ⟨hF, fun x hx => ?_⟩
      cases hx
      refine ⟨.found ?_, reported_last rfl⟩
      by_cases hhash : row.actionHash =
          actionHash site call.incident call.sop capability.id call.step.parameters
      · exact .inl hhash
      · refine .inr ?_
        cases hfinal : row.status.isFinal with
        | true => rfl
          | false => exact absurd ⟨hhash, hfinal⟩ hsame

/-- The row that the stages before the act go on with. -/
abbrev Goes (F : List Calls.Done → Prop) (row : ActionRow) (past : List Calls.Done)
    (r : Except Exn ActionRow) : Prop :=
  F past ∧ ∀ row', r = .ok row' → Kept past row row'

/-- The row is read again. -/
theorem followsFor_get (hE : Early site call capability A Ok F) (hF : F past) (row : ActionRow) :
    (askDb (.get row.id)).FollowsFor A Ok past (Goes F row) := by
  refine followsFor_ask_only (hE.ok _ _ hF trivial) fun x hx => ?_
  refine ⟨hE.keep _ _ hF trivial hx, fun row' hrow => ?_⟩
  subst hrow
  have htelling := hE.honest _ _ hx _ _ row' rfl rfl
  exact ⟨htelling.about _ rfl, .inr (reported_last rfl)⟩

/-- Something is noted in the row. -/
theorem followsFor_note (hE : Early site call capability A Ok F) (hF : F past) (row : ActionRow)
    (event : String) (payload : List (String × Json)) {values : Values}
    (hvalues : values.Unopened ∨ Opens past row.id values) :
    (askDb (.note row.id event payload values)).FollowsFor A Ok past (Goes F row) := by
  refine followsFor_ask_only (hE.ok _ _ hF hvalues) fun x hx => ?_
  refine ⟨hE.keep _ _ hF hvalues hx, fun row' hrow => ?_⟩
  subst hrow
  have htelling := hE.honest _ _ hx _ _ row' rfl rfl
  exact ⟨htelling.about _ rfl, .inr (reported_last rfl)⟩

theorem followsFor_ensureChange (hE : Early site call capability A Ok F) (hF : F past)
    {row : ActionRow} (hreported : Reported past row) :
    (ensureChange call row).FollowsFor A Ok past (Goes F row) := by
  refine Program.FollowsFor.ite (fun _ => ⟨hF, fun row' h => ?_⟩) fun _ => ?_
  · cases h
    exact .refl _ _
  refine Program.FollowsFor.bind (Program.FollowsFor.attempt ?_)
  have hfails : ∀ past' e, F past' → Program.FollowsFor A Ok (finish row undone (noChange e)) past'
      (Goes F row) := by
    intro past' e hF
    refine (followsFor_finish hE hF row fun _ _ _ _ hv => ⟨.inl ⟨rfl, .inr rfl⟩, hv⟩).mono
      fun past' r hr => ⟨hr.1, fun row' hrow => ?_⟩
    have hfinished := hr.2 row' hrow
    exact ⟨hfinished.id_eq, .inr hfinished.reported⟩
  refine Program.FollowsFor.ite (fun _ => hfails past _ hF) fun _ => ?_
  refine followsFor_ask_only (hE.ok _ _ hF hreported) fun x hx => ?_
  have hF' := hE.keep past ⟨.openChange row call.incident.sysId, x⟩ hF hreported hx
  cases x with
  | error e => exact hfails _ e hF'
  | ok ref =>
    refine followsFor_note hE hF' row _ _ (.inr ⟨row, call.incident.sysId, ref, ?_, ?_⟩)
    · exact List.mem_append_right _ (List.mem_singleton.mpr rfl)
    · exact ⟨hreported.snoc _, rfl, rfl, rfl⟩

theorem followsFor_askInServicenow (hE : Early site call capability A Ok F) (hF : F past)
    (row : ActionRow) : (askInServicenow row).FollowsFor A Ok past fun past' _ => F past' := by
  refine Program.FollowsFor.ite (fun _ => ?_) fun _ => hF
  refine hE.ask hF trivial (fun e hF' => hF') fun policy hF _ => ?_
  refine Program.FollowsFor.bind (Program.FollowsFor.attempt ?_)
  exact followsFor_ask_only (hE.ok _ _ hF trivial) fun x hx => hE.keep _ _ hF trivial hx

theorem followsFor_requestOnce (hE : Early site call capability A Ok F) (hF : F past)
    (row : ActionRow) : (requestOnce site row).FollowsFor A Ok past (Goes F row) := by
  refine Program.FollowsFor.ite (fun _ => ?_) fun _ => ⟨hF, fun row' h => ?_⟩
  · refine Program.FollowsFor.bind ((followsFor_askInServicenow hE hF row).mono fun past' r hF => ?_)
    cases r with
    | error e => exact ⟨hF, fun _ h => nomatch h⟩
    | ok asked =>
      refine hE.ask hF trivial (fun e hF' => ⟨hF', fun _ h => nomatch h⟩) fun now hF _ => ?_
      exact followsFor_note hE hF row _ _ (.inl ⟨rfl, rfl⟩)
  · cases h
    exact .refl _ _

theorem followsFor_lapse (hE : Early site call capability A Ok F) (hF : F past) (row : ActionRow)
    (now : Nat) : (lapse site row now).FollowsFor A Ok past (Goes F row) := by
  unfold lapse
  cases row.expiresAt with
  | none => exact ⟨hF, fun _ h => nomatch h⟩
  | some expiresAt =>
    refine Program.FollowsFor.ite (fun _ => ?_) fun _ => ⟨hF, fun row' h => ?_⟩
    · refine hE.ask hF ⟨.inr ⟨rfl, rfl⟩, rfl, rfl⟩ (fun e hF' => ⟨hF', fun _ h => nomatch h⟩)
        fun expired hF' hhonest => ?_
      cases expired with
      | some row' =>
        refine ⟨hF', fun x hx => ?_⟩
        cases hx
        have htelling := hhonest _ _ row' rfl rfl
        exact ⟨htelling.about _ rfl, .inr (reported_last rfl)⟩
      | none => exact followsFor_get hE hF' row
    · cases h
      exact .refl _ _

theorem followsFor_await (hE : Early site call capability A Ok F) (hF : F past) (row : ActionRow) :
    (await site call capability row).FollowsFor A Ok past fun past' r =>
      Goes F row past' r ∧ (row.status ≠ .pending → ∀ row', r = .ok row' → row' = row) := by
  refine Program.FollowsFor.ite (fun hpending => ?_) fun _ => ⟨⟨hF, fun row' h => ?_⟩, fun _ row' h => ?_⟩
  · refine Program.FollowsFor.bind ((followsFor_requestOnce hE hF row).mono fun past' r hr => ?_)
    have hnot : ∀ {p : Prop}, row.status ≠ .pending → p := fun hne => absurd hpending hne
    cases r with
    | error e => exact ⟨⟨hr.1, fun _ h => nomatch h⟩, hnot⟩
    | ok row₁ =>
      have hE' := hE.and (kept_growing row row₁)
      refine hE'.ask ⟨hr.1, hr.2 row₁ rfl⟩ trivial
        (fun e hF' => ⟨⟨hF'.1, fun _ h => nomatch h⟩, hnot⟩) fun now hF₁ _ => ?_
      refine Program.FollowsFor.bind ((followsFor_lapse hE' hF₁ row₁ now).mono fun past' r hr => ?_)
      cases r with
      | error e => exact ⟨⟨hr.1.1, fun _ h => nomatch h⟩, hnot⟩
      | ok row₂ =>
        refine Program.FollowsFor.ite (fun _ => ⟨⟨hr.1.1, fun _ h => nomatch h⟩, hnot⟩) fun _ => ?_
        refine ⟨⟨hr.1.1, fun row' h => ?_⟩, hnot⟩
        cases h
        exact hr.1.2.trans (hr.2 row₂ rfl)
  · cases h
    exact .refl _ _
  · cases h
    rfl

/-- **An attempt, up to where it acts**: the row it goes on with is the one it came by, which it
has seen anew only if nothing had been authorised. -/
theorem followsFor_continueStep (hE : Early site call capability A Ok F) (hF : F past)
    {row : ActionRow} (hreported : Reported past row)
    (hproceed : ∀ past' row', F past' → Kept past' row row' → (row.status ∉ undone → row' = row) →
      (proceed site call capability row').FollowsFor A Ok past' fun _ _ => True) :
    (continueStep site call capability row).FollowsFor A Ok past fun _ _ => True := by
  have hrest : ∀ past' row₁, F past' → Kept past' row row₁ → (row.status ∉ undone → row₁ = row) →
      Program.FollowsFor A Ok (do
        let row ← await site call capability row₁
        proceed site call capability row) past' fun _ _ => True := by
    intro past' row₁ hF hkept hsame
    have hE' := hE.and (kept_growing row row₁)
    refine Program.FollowsFor.bind ((followsFor_await hE' ⟨hF, hkept⟩ row₁).mono fun past' r hr => ?_)
    cases r with
    | error e => trivial
    | ok row₂ =>
      refine hproceed past' row₂ hr.1.1.1 (hr.1.1.2.trans (hr.1.2 row₂ rfl)) fun hs => ?_
      have hrow₁ := hsame hs
      subst hrow₁
      refine hr.2 (fun hpending => hs ?_) row₂ rfl
      rw [hpending]
      decide
  refine Program.FollowsFor.ite (fun hs => ?_) fun _ => hrest past row hF (.refl _ _) fun _ => rfl
  refine Program.FollowsFor.bind ((followsFor_ensureChange hE hF hreported).mono fun past' r hr => ?_)
  cases r with
  | error e => trivial
  | ok row₁ => exact hrest past' row₁ hr.1 (hr.2 row₁ rfl) fun hno => absurd hs hno

/-- **An attempt**, put together from how it came by its row and what it then does. -/
theorem followsFor_perform {call : ActionCall} (hF : F past)
    (hE : ∀ capability, site.registry.capability call.step.capability = some capability →
      Early site call capability A Ok F)
    (hproceed : ∀ capability past' row row', site.registry.capability call.step.capability =
        some capability → capability.kind = .write → F past' →
      Has site call capability past' row → Kept past' row row' → (row.status ∉ undone → row' = row) →
      (proceed site call capability row').FollowsFor A Ok past' fun _ _ => True) :
    (perform site call).FollowsFor A Ok past fun _ _ => True := by
  unfold perform
  split
  · trivial
  · rename_i capability hcapability
    refine Program.FollowsFor.ite (fun _ => trivial) fun hwrite => ?_
    split
    · trivial
    · rename_i runId hrun
      refine Program.FollowsFor.bind
        ((followsFor_obtainRow (hE capability hcapability) hF runId).mono fun past' r hr => ?_)
      cases r with
      | error e => trivial
      | ok found =>
        cases found with
        | none => trivial
        | some row =>
          have hhas : Program.Growing fun past => Has site call capability past row :=
            fun past d h => ⟨h.obtained.snoc d, h.reported.snoc d⟩
          refine followsFor_continueStep ((hE capability hcapability).and hhas) ⟨hr.1, hr.2 row rfl⟩
            (hr.2 row rfl).reported fun past' row' hF' hkept hsame => ?_
          exact hproceed capability past' row row' hcapability (not_not.mp hwrite) hF'.1 hF'.2
            hkept hsame

end ActionService

/-! ## When an attempt closes its action -/

/-- The operations by which an action is closed, in a status that is as given. -/
def Op.Closing (ends : ActionStatus → Prop) : Op → Prop
  | .db c => match c with
    | .get _ | .note .. => True
    | .transition _ _ toStatus .. => ends toStatus
    | _ => False
  | .noteChange .. | .closeChange .. => True
  | _ => False

namespace ActionService
variable {site : Site} {call : ActionCall} {ends : ActionStatus → Prop}

theorem closing_finish (row : ActionRow) (fromStatuses : List ActionStatus) {f : Finish}
    (hto : ends f.toStatus) : (finish row fromStatuses f).Issues (Op.Closing ends) := by
  refine Program.Issues.bind (issues_ask hto) fun moved => ?_
  cases moved with
  | some row => trivial
  | none => exact issues_ask trivial

theorem closing_noteChange (row : ActionRow) (text : String) :
    (noteChange row text).Issues (Op.Closing ends) :=
  Program.Issues.ite (fun _ => trivial) fun _ =>
    Program.Issues.bind (Program.Issues.attempt (issues_ask trivial)) fun _ => trivial

theorem closing_closeChange (row : ActionRow) (successful : Bool) (notes : String) :
    (closeChange row successful notes).Issues (Op.Closing ends) :=
  Program.Issues.ite (fun _ => trivial) fun _ =>
    Program.Issues.bind (Program.Issues.attempt (issues_ask trivial)) fun _ =>
      Program.Issues.bind (issues_ask trivial) fun _ => trivial

theorem closing_stopped (row : ActionRow) {stop : Stop} (h : stop.Early)
    (hends : ∀ st ∈ [ActionStatus.aborted, .invalid, .notDone], ends st) :
    (stopped site call row stop).Issues (Op.Closing ends) :=
  Program.Issues.bind (closing_finish row waiting (f := stop.finish) (hends _ h.1)) fun _ =>
    Program.issues_ofExcept _

end ActionService
end L1Agent
