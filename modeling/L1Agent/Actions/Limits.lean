import L1Agent.Service.Events

/-! # When the limits are looked at

The freeze windows, the hours and the rate limit of a tenant belong to the policy decision, and
nothing looks at them again.  What is decided is good for a time only: an approval may be given
until the request expires, and a write may begin until the authorisation does.

`limits_at_decision` says what this comes to.  When a write begins, its row was inserted by an
event that recorded a decision (`Decided`), and the same thread had counted the executions begun
lately, and then read the clock, without looking at either again in between; by these readings the
rules were open (`Rules.Open`).  And the write begins soon after the decision that allowed it, or
soon after an approval that came before the request expired (`BeginsInTime`).

The decision is followed from its own event: a thread weighs it before it records it
(`abides_decide`), a row that is inserted is decided by the event that inserts it
(`decided_added`), and the times that a row carries stay those of its decision and its approval
(`ActionRow.Timely.moved`).  That the limits may be over when the write begins is `limits_missed`.
-/
namespace L1Agent
open Interleaving

/-- **The limits are open**: they let a write be decided on at `now`, with `count` executions
begun lately. -/
structure Rules.Open (rules : Rules) (now count : Nat) : Prop where
  freeze : ∀ w ∈ rules.freeze, ¬ (w.start ≤ now ∧ now < w.stop)
  hours : ∀ h, rules.hours = some h → h.permits now = true
  rate : rules.rateMax = 0 ∨ count < rules.rateMax

/-! ## The decision -/

theorem refusal_none {text : PolicyText} {request : ActionRequest} {s : Situation}
    {tier : Option RiskTier} (h : refusal text request s tier = none) :
    s.rules.Open request.now s.recentActions := by
  unfold refusal at h
  split at h
  · cases h
  split at h
  · cases h
  split at h
  · cases h
  split at h
  · cases h
  split at h
  · cases h
  rename_i hfreeze
  split at h
  · cases h
  rename_i hhours
  split at h
  · cases h
  split at h
  · cases h
  rename_i hrate
  refine ⟨fun w hw hin => ?_, fun hs hrules => ?_, ?_⟩
  · have hnone := List.find?_eq_none.mp hfreeze w hw
    simp [hin.1, hin.2] at hnone
  · rw [hrules] at hhours
    simpa using hhours
  · omega

/-- What is not denied has passed the limits. -/
theorem evaluate_open {text : PolicyText} {request : ActionRequest} {s : Situation}
    (h : (evaluate text request s).verdict ≠ .deny) :
    s.rules.Open request.now s.recentActions := by
  unfold evaluate at h
  simp only at h
  split at h
  · exact absurd rfl h
  · rename_i hnone
    exact refusal_none hnone

/-- **What a decision keeps of the rules** it was made by, at `now`. -/
structure Decision.Stands (d : Decision) (rules : Rules) (now count : Nat) : Prop where
  limits : d.status = .pending ∨ d.status = .allowed → rules.Open now count
  expires : d.status = .pending → d.expiresAt = some (now + minutes rules.approvalTtlMinutes)
  valid : d.status = .allowed → d.validUntil = some (now + minutes rules.executeWithinMinutes)

theorem ActionService.decision_stands (site : Site) (call : ActionCall) (capability : Capability)
    (runId : Nat) (wanted author : String) (request : ActionRequest) (s : Situation) :
    (decision site call capability runId wanted author request.now s.rules
      (evaluate site.text request s)).Stands s.rules request.now s.recentActions where
  limits h := by
    refine @evaluate_open site.text request s fun hdeny => ?_
    have hstatus : (decision site call capability runId wanted author request.now s.rules
        (evaluate site.text request s)).status = .denied := by
      show verdictStatus (evaluate site.text request s).verdict = .denied
      rw [hdeny]
      rfl
    rw [hstatus] at h
    rcases h with h | h <;> cases h
  expires h := if_pos h
  valid h := if_pos h

/-! ## What an attempt has read when it records its decision -/

/-- The operation reads what the limits are compared with. -/
def Op.readsLimits : Op → Prop
  | .db (.situation ..) | .utcnow => True
  | _ => False

/-- A decision is recorded by the policy, the count and the clock that the thread has read last. -/
def Weighed (past : List Calls.Done) (o : Op) : Prop :=
  ∀ d payload, o = .db (.recordDecision d payload) →
    ∃ (policy : TenantPolicy) (found : Nat × String) (now : Nat) (before after : List Calls.Done),
      past = before ++ ⟨.db .getPolicy, .ok policy⟩ ::
        ⟨.db (.situation policy.rules.rateMinutes d.sopKey d.sopHash), .ok found⟩ ::
        ⟨.utcnow, .ok now⟩ :: after ∧
      (∀ x ∈ after, ¬ x.op.readsLimits) ∧ d.Stands policy.rules now found.1

theorem weighed_of_ne {past : List Calls.Done} {o : Op}
    (h : ∀ d payload, o ≠ .db (.recordDecision d payload)) : Weighed past o :=
  fun d payload ho => absurd ho (h d payload)

namespace ActionService
variable {site : Site}

theorem weighed_of_stages {past : List Calls.Done} {o : Op} (h : o.ofStages) :
    Weighed past o := by
  refine weighed_of_ne ?_
  rintro d payload rfl
  exact h

theorem issues_killSwitches : killSwitches.Issues fun o : Op => ¬ o.readsLimits :=
  Program.Issues.bind (issues_ask id) fun _ => Program.Issues.bind (issues_ask id) fun _ => trivial

theorem follows_record {past : List Calls.Done} {d : Decision} {autonomy : Autonomy}
    (h : Weighed past (.db (.recordDecision d (decisionPayload d autonomy)))) :
    (record d autonomy).Follows Weighed past fun _ _ => True := by
  refine .bind (.attempt ⟨h, fun x => ?_⟩)
  cases x with
  | ok row => trivial
  | error e =>
    refine .ite (fun _ => ⟨weighed_of_stages (by exact trivial), fun x => ?_⟩) fun _ => trivial
    cases x <;> trivial

/-- **A decision is weighed**: its record comes after the readings it is made by, and nothing of
them is read again in between. -/
theorem abides_decide (call : ActionCall) (capability : Capability) (runId : Nat)
    (wanted : String) : (decide site call capability runId wanted).Abides Weighed fun _ => True := by
  intro past _
  have hC := Program.abides_compositional (E := Calls) (ε := Exn) Weighed fun _ => True
  have hany : ∀ {o : Op}, o.ofStages → (ask o).Abides Weighed fun _ => True := fun ho =>
    abides_of_issues growing_true (issues_ask fun _ => weighed_of_stages ho)
  refine follows_ask (weighed_of_ne fun _ _ h => nomatch h) (fun _ => trivial) fun policy => ?_
  refine follows_ask (weighed_of_ne fun _ _ h => nomatch h) (fun _ => trivial) fun found => ?_
  refine follows_ask (weighed_of_ne fun _ _ h => nomatch h) (fun _ => trivial) fun now => ?_
  refine .bind ((Program.Follows.adds issues_killSwitches
    (of_killSwitches hC (fun _ h _ => hany h) _ trivial)).mono ?_)
  rintro past' on ⟨-, switches, rfl, hswitches⟩
  cases on with
  | error e => trivial
  | ok on =>
    refine follows_ask (weighed_of_ne fun _ _ h => nomatch h) (fun _ => trivial) fun refusals => ?_
    refine follows_record ?_
    rintro d payload ⟨⟩
    refine ⟨policy, found, now, past,
      switches ++ [⟨.refusals capability.id call.step.parameters, .ok refusals⟩], ?_,
      fun x hx => ?_, decision_stands site call capability runId wanted found.2 _ _⟩
    · simp only [List.append_assoc, List.cons_append]
      rfl
    · rcases List.mem_append.mp hx with hx | hx
      · exact hswitches x hx
      · rw [List.mem_singleton.mp hx]
        exact id

end ActionService

/-- The coroutines of a deployment. -/
theorem service_weighed {site : Site} {p : Prog Unit} (h : Service site p) :
    p.Follows Weighed [] fun _ _ => True := by
  have hany : ∀ {o : Op}, o.ofStages → (ask o).Abides Weighed fun _ => True := fun ho =>
    abides_of_issues growing_true (issues_ask fun _ => ActionService.weighed_of_stages ho)
  refine service_follows (fun o ho past => weighed_of_ne ?_) (fun call => ?_) (fun pollDue => ?_)
    (fun _ _ _ => weighed_of_ne (by rintro _ _ ⟨⟩))
    (fun _ _ _ _ => weighed_of_ne (by rintro _ _ ⟨⟩))
    (fun o ho past => weighed_of_ne ?_) h
  · rintro d payload rfl
    exact ho
  · exact ActionService.of_perform_decided (Program.abides_compositional _ _) (fun o h => hany h)
      call fun capability runId wanted => ActionService.abides_decide call capability runId wanted
  · refine abides_of_issues growing_true (ActionService.of_sweep
      (Program.issues_compositional _) (fun o h _ => issues_ask fun past => weighed_of_ne ?_) pollDue)
    rintro d payload rfl
    exact h
  · rintro d payload rfl
    cases ho

/-! ## What is claimed -/

/-- The event moves the row to `executing`. -/
def Site.Event.Begins {site : Site} (ev : site.Event) (r : ActionRow) : Prop :=
  ev.before.db.actions.get? r.id = some r ∧ r.status ≠ .executing ∧
    ∃ r', ev.after.db.actions.get? r.id = some r' ∧ r'.status = .executing

/-- No write begins in a freeze window. -/
def FreezeKept {site : Site} (rules : Rules) (tr : List site.Event) : Prop :=
  ∀ ev ∈ tr, ∀ r, ev.Begins r → ∀ w ∈ rules.freeze, ¬ (w.start ≤ ev.time ∧ ev.time < w.stop)

/-- No write begins outside the hours. -/
def HoursKept {site : Site} (rules : Rules) (tr : List site.Event) : Prop :=
  ∀ ev ∈ tr, ∀ r, ev.Begins r → ∀ h, rules.hours = some h → h.permits ev.time = true

/-- No more writes than the rate allows begin within its minutes. -/
def RateKept {site : Site} (rules : Rules) (tr : List site.Event) : Prop :=
  rules.rateMax ≠ 0 → ∀ since, ∀ begun : List site.Event, begun.Sublist tr →
    (∀ ev ∈ begun, (∃ r, ev.Begins r) ∧ since ≤ ev.time ∧
      ev.time < since + minutes rules.rateMinutes) → begun.length ≤ rules.rateMax

/-- The event inserts the row, by this decision: there was none, and the columns that no statement
changes are the decision's. -/
def Site.Event.Inserts {site : Site} (ev : site.Event) (d : Decision) (r : ActionRow) : Prop :=
  (∃ payload v, ev.Commits (.recordDecision d payload) v) ∧
    ev.before.db.actions.get? r.id = none ∧
    ∃ incidentId, ev.after.db.actions.get? r.id = some (d.toRow r.id incidentId) ∧
      r.subject = (d.toRow r.id incidentId).subject

/-- **The row's decision, at `now`**: the thread that inserted the row had counted the executions
begun lately, and then read the clock; it read neither again before it recorded the decision; and
the limits were open by these readings. -/
def Decided {site : Site} (rules : Rules) (tr : List site.Event) (r : ActionRow) (now : Nat) :
    Prop :=
  ∃ before counted between clock after record rest d author,
    tr = before ++ counted :: (between ++ clock :: (after ++ record :: rest)) ∧
    counted.thread = record.thread ∧ clock.thread = record.thread ∧
    (∀ e ∈ between ++ after, e.thread = record.thread → ¬ Op.readsLimits e.op) ∧
    (⟨counted.op, counted.answer⟩ : Calls.Done) =
      ⟨.db (.situation rules.rateMinutes d.sopKey d.sopHash),
        .ok (recentExecutions counted.time rules.rateMinutes counted.before.db, author)⟩ ∧
    (⟨clock.op, clock.answer⟩ : Calls.Done) = ⟨.utcnow, .ok now⟩ ∧ clock.time = now ∧
    record.Inserts d r ∧
    rules.Open now (recentExecutions counted.time rules.rateMinutes counted.before.db)

/-- The approval of the row. -/
def Site.Event.ApprovalOf {site : Site} (ev : site.Event) (r : ActionRow) : Prop :=
  ∃ a v, ev.Commits (.decide r.id a) v ∧ a.approve = true

/-- **The write begins in time**: soon after the decision that allowed it, or soon after an
approval that came before the request expired. -/
def BeginsInTime {site : Site} (rules : Rules) (tr : List site.Event) (ev : site.Event)
    (r : ActionRow) : Prop :=
  ∃ now, Decided rules tr r now ∧
    ((r.status = .allowed ∧ ev.time < now + minutes rules.executeWithinMinutes) ∨
      ∃ approval ∈ tr, approval.ApprovalOf r ∧
        approval.time < now + minutes rules.approvalTtlMinutes ∧
        ev.time < approval.time + minutes rules.executeWithinMinutes)

/-- The step leaves the tenant's rules as they are. -/
def Op.KeepsRules (rules : Rules) : Op → Prop
  | .db (.setPolicy policy) => policy.rules = rules
  | _ => True

instance (rules : Rules) (o : Op) : Decidable (o.KeepsRules rules) := by
  unfold Op.KeepsRules
  split <;> infer_instance

/-! ## What the rows say of their decision -/

section
variable {site : Site} {rules : Rules} {tr : List site.Event} {ev : site.Event} {r r' : ActionRow}

/-- **The row is timely**: the times it carries are those of its decision and its approval. -/
structure ActionRow.Timely (rules : Rules) (tr : List site.Event) (r : ActionRow) : Prop where
  pending : r.status = .pending → ∃ now, Decided rules tr r now ∧
    r.expiresAt = some (now + minutes rules.approvalTtlMinutes)
  allowed : r.status = .allowed → ∃ now, Decided rules tr r now ∧
    r.validUntil = some (now + minutes rules.executeWithinMinutes)
  approved : r.status = .approved → ∃ now, Decided rules tr r now ∧ ∃ approval ∈ tr,
    approval.ApprovalOf r ∧ approval.time < now + minutes rules.approvalTtlMinutes ∧
    r.validUntil = some (approval.time + minutes rules.executeWithinMinutes)

theorem Decided.snoc {now : Nat} (h : Decided rules tr r now) (ev : site.Event) :
    Decided rules (tr ++ [ev]) r now := by
  obtain ⟨before, counted, between, clock, after, record, rest, d, author, rfl, hrest⟩ := h
  exact ⟨before, counted, between, clock, after, record, rest ++ [ev], d, author, by simp, hrest⟩

/-- The decision of a row is that of what becomes of it. -/
theorem Decided.of_subject {now : Nat} (h : Decided rules tr r now) (hs : r'.subject = r.subject) :
    Decided rules tr r' now := by
  obtain ⟨before, counted, between, clock, after, record, rest, d, author, hsplit, hthread,
    hthread', hquiet, hcounted, hclock, htime, hinserts, hopen⟩ := h
  have hid : r'.subject.id = r.subject.id := by rw [hs]
  have hid : r'.id = r.id := hid
  refine ⟨before, counted, between, clock, after, record, rest, d, author, hsplit, hthread,
    hthread', hquiet, hcounted, hclock, htime, ?_, hopen⟩
  unfold Site.Event.Inserts at hinserts ⊢
  rw [hid, hs]
  exact hinserts

theorem ActionRow.Timely.snoc (h : r.Timely rules tr) (ev : site.Event) :
    r.Timely rules (tr ++ [ev]) where
  pending hs := by
    obtain ⟨now, hdecided, hrest⟩ := h.pending hs
    exact ⟨now, hdecided.snoc ev, hrest⟩
  allowed hs := by
    obtain ⟨now, hdecided, hrest⟩ := h.allowed hs
    exact ⟨now, hdecided.snoc ev, hrest⟩
  approved hs := by
    obtain ⟨now, hdecided, approval, happroval, hrest⟩ := h.approved hs
    exact ⟨now, hdecided.snoc ev, approval, List.mem_append_left _ happroval, hrest⟩

/-- A row that waits for nothing. -/
theorem ActionRow.Timely.of_status (h : r.status ∉ [ActionStatus.pending, .allowed, .approved]) :
    r.Timely rules tr where
  pending hs := absurd (by rw [hs]; simp) h
  allowed hs := absurd (by rw [hs]; simp) h
  approved hs := absurd (by rw [hs]; simp) h

theorem later_of_open {expires : Option Nat} {x now : Nat} (h : expires = some x)
    (hopen : expires.all (· ≤ now) = false) : now < x := by
  subst h
  simpa using hopen

/-- The row as an approval leaves it, which is good for `w` from now. -/
theorem ActionRow.Timely.answered {a : Answer} {v : (DbCall.decide r.id a).Val} {w : Nat}
    (hw : minutes rules.executeWithinMinutes = w) (h : r.Timely rules tr)
    (hc : ev.Commits (.decide r.id a) v) (hpending : r.status = .pending)
    (hopen : r.expiresAt.all (· ≤ ev.time) = false) :
    (r.answered ev.time (ev.time + w) a).Timely rules (tr ++ [ev]) := by
  cases happrove : a.approve with
  | false =>
    refine .of_status ?_
    simp [ActionRow.answered, happrove]
  | true =>
    have hs : (r.answered ev.time (ev.time + w) a).status = .approved := by
      simp [ActionRow.answered, happrove]
    obtain ⟨now, hdecided, hexpires⟩ := h.pending hpending
    refine ⟨fun hp => ?_, fun hp => ?_, fun _ => ⟨now, (hdecided.snoc ev).of_subject rfl, ev, by simp,
      ⟨a, v, hc, happrove⟩, later_of_open hexpires hopen, ?_⟩⟩
    · rw [hs] at hp
      cases hp
    · rw [hs] at hp
      cases hp
    · rw [hw]
      rfl

/-- **A statement about the row** leaves it timely. -/
theorem ActionRow.Timely.moved {c : DbCall} {v : c.Val} (h : r.Timely rules tr)
    (hrules : ev.before.db.policy.rules = rules) (hop : Op.OfService (.db c))
    (hc : ev.Commits c v) (hmove : r.Move ev.before.db ev.time c r') :
    r'.Timely rules (tr ++ [ev]) := by
  cases hmove with
  | same => exact h.snoc ev
  | noted event payload values =>
    have hsame := h.snoc ev
    refine ⟨fun hs => ?_, fun hs => ?_, fun hs => ?_⟩
    · obtain ⟨now, hdecided, hrest⟩ := hsame.pending hs
      exact ⟨now, hdecided.of_subject rfl, hrest⟩
    · obtain ⟨now, hdecided, hrest⟩ := hsame.allowed hs
      exact ⟨now, hdecided.of_subject rfl, hrest⟩
    · obtain ⟨now, hdecided, hrest⟩ := hsame.approved hs
      exact ⟨now, hdecided.of_subject rfl, hrest⟩
  | moved fromStatuses toStatus event payload values wake hfrom =>
    refine .of_status fun hmem => hop.lands_elsewhere ?_
    have hto : toStatus ∈ [ActionStatus.pending, .allowed, .approved] := hmem
    simp only [List.mem_cons, List.not_mem_nil, or_false] at hto ⊢
    tauto
  | begun => exact .of_status (by simp [ActionRow.begun])
  | expired => exact .of_status (by simp [ActionRow.expiredAt])
  | answered a hok hopen =>
    exact h.answered (by rw [hrules]) hc (refuses_pending hok) hopen

/-- **A row that is inserted is decided**: its decision is that of the event that inserts it, whose
thread has weighed it, and the decision stands for the rules of the run. -/
theorem decided_added (hrules : ∀ e ∈ tr, e.before.db.policy.rules = rules)
    (hhappens : ∀ e ∈ tr, e.Happens) {d : Decision} {payload : List (String × Json)}
    {v : (DbCall.recordDecision d payload).Val} (hc : ev.Commits (.recordDecision d payload) v)
    (hweighed : Weighed (System.own ev.thread tr) (.db (.recordDecision d payload)))
    {id incidentId : Nat} (hnone : ev.before.db.actions.get? id = none)
    (hadded : ev.after.db.actions.get? id = some (d.toRow id incidentId)) :
    ∃ now count, d.Stands rules now count ∧ (rules.Open now count →
      Decided rules (tr ++ [ev]) (d.toRow id incidentId) now) := by
  obtain ⟨policy, found, now, past, rest, hown, hquiet, hstands⟩ := hweighed d payload rfl
  have hpolicy : (⟨.db .getPolicy, .ok policy⟩ : Calls.Done) ∈ System.own ev.thread tr := by
    rw [hown]
    simp
  obtain ⟨_, b₁, a₁, hread⟩ := System.mem_own hpolicy
  have hsame : policy.rules = rules := by
    obtain ⟨heq, -⟩ := Prod.mk.inj (Except.ok.inj (Op.step_ok (hhappens _ hread)))
    rw [← heq]
    exact hrules _ hread
  rw [hsame] at hown hstands
  -- the history is cut where the thread has counted, and then where it has read the clock
  rw [List.append_cons] at hown
  obtain ⟨before, counted, tail, rfl, hthread, hcounted, -, htail⟩ := System.own_split hown
  have htail : System.own ev.thread tail = [] ++ ⟨.utcnow, .ok now⟩ :: rest := htail
  obtain ⟨between, clock, after, rfl, hthread', hclock, hbetween, hafter⟩ :=
    System.own_split htail
  have hcount : found = (recentExecutions (Site.Event.time counted) rules.rateMinutes
      counted.before.db, found.2) := by
    have hev := hhappens counted (by simp)
    obtain ⟨t, o, ch, s, x, s'⟩ := counted
    cases hcounted
    obtain ⟨heq, -⟩ := Prod.mk.inj (Except.ok.inj (Op.step_ok hev))
    rw [← heq]
    rfl
  have htime : Site.Event.time clock = now := by
    have hev := hhappens clock (by simp)
    obtain ⟨t, o, ch, s, x, s'⟩ := clock
    cases hclock
    exact (Op.step_utcnow hev).symm
  rw [hcount] at hcounted hstands
  have hbetween' : ∀ e ∈ between ++ after, e.thread = ev.thread → ¬ Op.readsLimits e.op := by
    intro e he ht
    rcases List.mem_append.mp he with he | he
    · have hmem := System.own_mem he
      rw [ht, hbetween] at hmem
      cases hmem
    · have hmem := System.own_mem he
      rw [ht, hafter] at hmem
      exact hquiet _ hmem
  exact ⟨now, _, hstands, fun hopen => ⟨before, counted, between, clock, after, ev, [], d, found.2,
    by simp, hthread, hthread', hbetween', hcounted.symm, hclock.symm, htime,
    ⟨⟨payload, v, hc⟩, hnone, incidentId, hadded, rfl⟩, hopen⟩⟩

/-- **A new row is timely**: no decision leaves it approved. -/
theorem timely_added (hrules : ∀ e ∈ tr, e.before.db.policy.rules = rules)
    (hhappens : ∀ e ∈ tr, e.Happens) {d : Decision} {payload : List (String × Json)}
    {v : (DbCall.recordDecision d payload).Val} (hc : ev.Commits (.recordDecision d payload) v)
    (hweighed : Weighed (System.own ev.thread tr) (.db (.recordDecision d payload)))
    (hstatus : d.status = verdictStatus d.verdict) {id incidentId : Nat}
    (hnone : ev.before.db.actions.get? id = none)
    (hadded : ev.after.db.actions.get? id = some (d.toRow id incidentId)) :
    (d.toRow id incidentId).Timely rules (tr ++ [ev]) := by
  obtain ⟨now, count, hstands, hdecided⟩ :=
    decided_added hrules hhappens hc hweighed hnone hadded
  refine ⟨fun hs => ⟨now, hdecided (hstands.limits (.inl hs)), hstands.expires hs⟩,
    fun hs => ⟨now, hdecided (hstands.limits (.inr hs)), hstands.valid hs⟩, fun hs => ?_⟩
  have hnever : d.status = .approved := hs
  rw [hstatus] at hnever
  cases hverdict : d.verdict <;> rw [hverdict] at hnever <;> cases hnever

/-- **A write begins by an authorisation**, of a row that may begin. -/
theorem Site.Event.Begins.authorised (hop : ev.op.OfService) (hev : ev.Happens)
    (h : ev.Begins r) :
    (r.status = .approved ∨ r.status = .allowed) ∧ r.validUntil.any (ev.time < ·) = true := by
  obtain ⟨hr, hs, r', hr', hs'⟩ := h
  rcases hev.row_moves hr hr' with rfl | ⟨c, v, hc, hmove⟩
  · exact absurd hs' hs
  rw [hc.1] at hop
  cases hmove with
  | same => exact absurd hs' hs
  | noted event payload values =>
    have hnoted : r.status = .executing := hs'
    exact absurd hnoted hs
  | moved fromStatuses toStatus event payload values wake hfrom =>
    obtain rfl : toStatus = .executing := hs'
    exact absurd (by decide) hop.lands_elsewhere
  | begun localSwitch hfrom hvalid hoff => exact ⟨hfrom, hvalid⟩
  | answered a hok htime =>
    have hanswer : (if a.approve then ActionStatus.approved else .rejected) = .executing := hs'
    split at hanswer <;> cases hanswer
  | expired => cases hs'

/-- A row that may begin, and is timely, begins in time. -/
theorem ActionRow.Timely.begins (h : r.Timely rules tr)
    (hs : r.status = .approved ∨ r.status = .allowed)
    (hvalid : r.validUntil.any (ev.time < ·) = true) : BeginsInTime rules tr ev r := by
  have hbefore : ∀ {x}, r.validUntil = some x → ev.time < x := by
    intro x hx
    rw [hx] at hvalid
    exact of_decide_eq_true hvalid
  rcases hs with hs | hs
  · obtain ⟨now, hdecided, approval, hmem, happroval, hsoon, hgood⟩ := h.approved hs
    exact ⟨now, hdecided, .inr ⟨approval, hmem, happroval, hsoon, hbefore hgood⟩⟩
  · obtain ⟨now, hdecided, hgood⟩ := h.allowed hs
    exact ⟨now, hdecided, .inl ⟨hs, hbefore hgood⟩⟩

end

/-! ## The runs -/

/-- What is known at each point of a history: the rules are the same, and the rows are timely. -/
structure Regulated {site : Site} (rules : Rules) (s : Estate) (tr : List site.Event) : Prop where
  fixed : s.db.policy.rules = rules
  before : ∀ e ∈ tr, e.before.db.policy.rules = rules
  timely : ∀ id r, s.db.actions.get? id = some r → r.Timely rules tr

/-- A step that keeps the rules. -/
theorem Site.Event.Happens.rules_eq {site : Site} {ev : site.Event} {rules : Rules}
    (hev : ev.Happens) (hkeep : ev.op.KeepsRules rules)
    (h : ev.before.db.policy.rules = rules) : ev.after.db.policy.rules = rules := by
  rcases hev.db_cases with hsame | ⟨c, v, hc⟩
  · rw [hsame]
    exact h
  by_cases hwrites : Table.policy ∈ c.writes
  · cases c with
    | setPolicy policy =>
      rw [hc.1] at hkeep
      have hrun := hc.2
      obtain ⟨-, hafter⟩ := Prod.mk.inj (Except.ok.inj hrun)
      rw [← hafter]
      exact hkeep
    | _ => simp [DbCall.writes] at hwrites
  · have hsame : ev.after.db.policy = ev.before.db.policy := DbCall.run_same hc.2 hwrites
    rw [hsame]
    exact h

theorem Regulated.step {site : Site} {rules : Rules} {ev : site.Event} {pre : List site.Event}
    (h : Regulated rules ev.before pre) (hop : ev.op.OfService) (hev : ev.Happens)
    (hkeep : ev.op.KeepsRules rules) (hpast : ∀ e ∈ pre, e.Happens)
    (hweighed : Weighed (System.own ev.thread pre) ev.op) :
    Regulated rules ev.after (pre ++ [ev]) where
  fixed := hev.rules_eq hkeep h.fixed
  before e he := by
    rcases List.mem_append.mp he with he | he
    · exact h.before e he
    · cases List.mem_singleton.mp he
      exact h.fixed
  timely id r' hr' := by
    cases hr : ev.before.db.actions.get? id with
    | none =>
      obtain ⟨d, payload, v, incidentId, hc, rfl⟩ := hev.row_added hr hr'
      rw [hc.1] at hop hweighed
      exact timely_added h.before hpast hc hweighed hop.decision_status hr hr'
    | some r =>
      rcases hev.row_moves hr hr' with rfl | ⟨c, v, hc, hmove⟩
      · exact (h.timely id r' hr).snoc ev
      · rw [hc.1] at hop
        exact (h.timely id r hr).moved h.fixed hop hc hmove

/-- **The limits are kept when a write is decided on**, over every run in which the rules stay
fixed, and the write begins within the times that the decision and its approval give it. -/
theorem limits_at_decision (site : Site) (rules : Rules) (s : Estate)
    (hempty : s.db.actions.rows = []) (hrules : s.db.policy.rules = rules)
    (d : Config Calls Exn (Estate × List site.Event))
    (hd : site.service.recorded.Reaches (fun _ o _ _ => o.KeepsRules rules)
      (Config.idle (s, [])) d) :
    System.Each (fun pre (ev : site.Event) => ∀ r, ev.Begins r → BeginsInTime rules pre ev r)
      d.shared.2 := by
  have hevents := @recorded_events site (fun _ o _ _ => o.KeepsRules rules) s d hd
  have hweighed := System.recorded_follows (fun _ hp => service_weighed hp) hd
  have hstart : Regulated rules s ([] : List site.Event) := by
    refine ⟨hrules, by simp, fun id r hr => ?_⟩
    have hmem := ActionTable.get?_mem hr
    rw [hempty] at hmem
    cases hmem
  obtain ⟨-, heach⟩ := System.recorded_induction (I := Regulated rules) hd hstart
    fun pre ev post hsplit h => by
      obtain ⟨hop, hev, hkeep⟩ := hevents ev (by simp [hsplit])
      have hpast : ∀ e ∈ pre, Site.Event.Happens e := fun e he =>
        (hevents e (by rw [hsplit]; exact List.mem_append_left _ he)).2.1
      exact h.step hop hev hkeep hpast (hweighed pre ev post hsplit)
  intro pre ev post hsplit r hbegins
  obtain ⟨hop, hev, -⟩ := hevents ev (by simp [hsplit])
  obtain ⟨hs, hvalid⟩ := hbegins.authorised hop hev
  exact ((heach pre ev post hsplit).timely r.id r hbegins.1).begins hs hvalid

/-- A write that the rules allow, and that begins at once. -/
theorem limits_at_decision_sample : ∃ d : Config Calls Exn (Estate × List servingSite.Event),
    d.shared.1.statuses = [.verified] ∧
      System.Each (fun pre (ev : servingSite.Event) =>
        ∀ r, ev.Begins r → BeginsInTime (servingEstate .automatic).db.policy.rules pre ev r)
          d.shared.2 := by
  have hplay : (servingSite.service.recorded.playIf
      (fun _ o _ _ => decide (o.KeepsRules (servingEstate .automatic).db.policy.rules))
      (Config.idle (servingEstate .automatic, []))
      ((.start servingTurn :: List.replicate 44 (.op 0 smooth)))).map (fun d =>
        d.shared.1.statuses) = some [.verified] := by
    decide +kernel
  obtain ⟨d, hd, hends⟩ := Option.map_eq_some_iff.mp hplay
  exact ⟨d, hends, limits_at_decision servingSite _ (servingEstate .automatic) rfl rfl d
    (System.playIf_reaches _ (fun _ _ _ _ h => of_decide_eq_true h)
      (.start (Service.work _ _ _) .ops) hd)⟩

/-- Two runs that are queued, for a tenant that takes one write an hour, and none after the
first minute. -/
def limitedEstate : Estate :=
  let e := servingEstate .automatic
  { e with
    db :=
      { e.db with
        incidents := [⟨0, "servicenow", "abc", sampleIncident⟩,
          ⟨1, "servicenow", "abd", { sampleIncident with sysId := "abd" }⟩]
        runs := [{ id := 0, incidentId := 0, number := "INC1", state := "received" },
          { id := 1, incidentId := 1, number := "INC2", state := "received" }]
        jobs := [{ id := 0, runId := 0, availableAt := 0 }, { id := 1, runId := 1, availableAt := 0 }]
        policy :=
          { e.db.policy with
            rules :=
              { e.db.policy.rules with
                freeze := [{ start := minutes 1, stop := minutes 2 }]
                hours := some { days := [0, 1, 2, 3, 4, 5, 6], start := 0, stop := 1 }
                rateMax := 1 } } } }

/-- The turn of a second worker. -/
def secondTurn : Prog Unit := RunService.workOnce servingSite "worker-2" false false

/-- The event begins a write in the second minute. -/
def Site.Event.late {site : Site} (ev : site.Event) : Bool :=
  match ev.op with
  | .db (.authoriseExecution id _) =>
    match ev.before.db.actions.get? id, ev.after.db.actions.get? id with
    | some r, some r' => r.status ≠ .executing ∧ r'.status = .executing ∧ ev.time = minutes 1
    | _, _ => false
  | _ => false

theorem Site.Event.begins_of_late {site : Site} {ev : site.Event} (h : ev.late = true) :
    (∃ r, ev.Begins r) ∧ ev.time = minutes 1 := by
  unfold late at h
  split at h
  · split at h
    · rename_i r r' hr hr'
      obtain ⟨hs, hs', htime⟩ := of_decide_eq_true h
      have hid := ActionTable.get?_id hr
      subst hid
      exact ⟨⟨r, hr, hs, r', hr', hs'⟩, htime⟩
    · cases h
  · cases h

/-- **The limits can be missed when writes begin**, each of them.  Two workers have decided by
the same count, before the freeze and within the hours; a minute later they both begin. -/
theorem limits_missed : ¬ ∀ (site : Site) (rules : Rules) (s : Estate),
    s.db.actions.rows = [] → s.db.policy.rules = rules →
    ∀ d : Config Calls Exn (Estate × List site.Event),
      site.service.recorded.Reaches (fun _ o _ _ => o.KeepsRules rules)
        (Config.idle (s, [])) d →
      FreezeKept rules d.shared.2 ∨ HoursKept rules d.shared.2 ∨ RateKept rules d.shared.2 := by
  intro hall
  have hplay : (servingSite.service.recorded.playIf
      (fun _ o _ _ => decide (o.KeepsRules limitedEstate.db.policy.rules))
      (Config.idle (limitedEstate, []))
      ((.start servingTurn :: List.replicate 27 (.op 0 smooth)) ++
        (.start secondTurn :: (List.replicate 27 (.op 1 smooth) ++
          (List.replicate 1 (.op 0 { smooth with elapsed := minutes 1 }) ++
            List.replicate 1 (.op 1 smooth)))))).map (fun d =>
              (d.shared.2.filter Site.Event.late).length) = some 2 := by
    decide +kernel
  obtain ⟨d, hd, hends⟩ := Option.map_eq_some_iff.mp hplay
  have hlate : ∀ ev ∈ d.shared.2.filter Site.Event.late,
      (∃ r, Site.Event.Begins ev r) ∧ Site.Event.time ev = minutes 1 := fun ev hev =>
    Site.Event.begins_of_late (List.mem_filter.mp hev).2
  obtain ⟨ev, hev⟩ : ∃ ev, ev ∈ d.shared.2.filter Site.Event.late :=
    List.exists_mem_of_length_pos (by omega)
  obtain ⟨⟨r, hbegins⟩, htime⟩ := hlate ev hev
  have hmem := (List.mem_filter.mp hev).1
  rcases hall servingSite _ limitedEstate rfl rfl d
    (System.playIf_reaches _ (fun _ _ _ _ h => of_decide_eq_true h)
      (.append (.start (Service.work _ _ _) .ops)
        (.start (Service.work _ _ _) (.append .ops (.append .ops .ops)))) hd) with
    hfreeze | hhours | hrate
  · refine hfreeze ev hmem r hbegins { start := minutes 1, stop := minutes 2 } (by decide) ?_
    rw [htime]
    decide
  · have hpermits := hhours ev hmem r hbegins _ rfl
    rw [htime] at hpermits
    exact absurd hpermits (by decide)
  · have hcount := hrate (by decide) (minutes 1) _ List.filter_sublist fun e he => by
      obtain ⟨hb, ht⟩ := hlate e he
      refine ⟨hb, ?_⟩
      rw [ht]
      decide
    rw [hends] at hcount
    exact absurd hcount (by decide)

end L1Agent
