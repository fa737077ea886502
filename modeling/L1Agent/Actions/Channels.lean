import L1Agent.Service.Events

/-! # Where an approval may come from

Each action row lists the channels that an approval may come through.  The sweeper asks the
change record only about rows that list `servicenow`.  `decide` itself looks at no list, so on
the other side it is the approvers' pages that have to keep to it.

So approvals keep to their channels in every run in which the pages do (`channels_kept`).  The
sweeper needs no condition: `ActionService.abides_sweep` says that it decides only about rows that
it has read, and which list its channel.  `channel_ignored` is the run in which the pages do not.
-/
namespace L1Agent
open Interleaving

/-- The event takes the row from pending to approved. -/
def Site.Event.Approved {site : Site} (ev : site.Event) (r : ActionRow) : Prop :=
  ev.before.db.actions.get? r.id = some r ∧ r.status = .pending ∧
    ∃ r', ev.after.db.actions.get? r.id = some r' ∧ r'.status = .approved

/-- **Approvals keep to their channels**: a row is approved only by an approval that comes
through a channel which the row lists. -/
def ChannelsKept {site : Site} (tr : List site.Event) : Prop :=
  ∀ ev ∈ tr, ∀ r, ev.Approved r →
    ∃ a v, ev.Commits (.decide r.id a) v ∧ a.approve = true ∧ a.via ∈ r.channels

/-- **The pages keep to the list**: an approval from there, where it is accepted, is about a
row that lists the pages. -/
def Op.Listed (now : Nat) (db : Db) : Op → Prop
  | .db (.decide id a) =>
    match db.actions.get? id with
    | some r => a.via = channelUi → a.approve = true → refuses now r a = none →
        r.expiresAt.all (· ≤ now) = false → channelUi ∈ r.channels
    | none => True
  | _ => True

instance (now : Nat) (db : Db) (o : Op) : Decidable (o.Listed now db) := by
  unfold Op.Listed
  split
  · split <;> infer_instance
  · infer_instance

/-! ## What the sweeper has seen -/

/-- What is decided on a change record is about a row that the thread has read, and which lists
that channel. -/
def Looked (past : List Calls.Done) (o : Op) : Prop :=
  ∀ id a, o = .db (.decide id a) → a.via = channelServicenow →
    ∃ rows : List ActionRow, (⟨.db .pending, .ok rows⟩ : Calls.Done) ∈ past ∧
      ∃ r ∈ rows, r.id = id ∧ channelServicenow ∈ r.channels

/-- An operation that decides nothing on a change record. -/
def Op.Elsewhere (o : Op) : Prop :=
  ∀ id a, o = .db (.decide id a) → a.via ≠ channelServicenow

theorem looked_of_elsewhere {past : List Calls.Done} {o : Op} (h : o.Elsewhere) : Looked past o :=
  fun id a ho hvia => absurd hvia (h id a ho)

theorem Op.elsewhere_of_attempt {o : Op} (h : o.ofAttempt) : o.Elsewhere := by
  rintro id a rfl
  exact h.elim

theorem Op.elsewhere_of_worker {o : Op} (h : o.ofWorker) : o.Elsewhere := by
  rintro id a rfl
  exact h.elim

theorem Op.elsewhere_of_outside {o : Op} (h : o.fromOutside = true) : o.Elsewhere := by
  rintro id a rfl
  cases h

/-- **The sweeper decides about rows that it has read**, and which list its channel. -/
theorem ActionService.abides_sweep (site : Site) (pollDue : Bool) :
    (sweep site pollDue).Abides Looked fun _ => True := by
  intro past _
  refine follows_ask (looked_of_elsewhere fun _ _ h => nomatch h) (fun _ => trivial)
    fun waiting => ?_
  have hK : Program.Growing fun past : List Calls.Done =>
      (⟨.db .pending, .ok waiting⟩ : Calls.Done) ∈ past := Program.growing_mem _
  have hC := Program.abides_compositional (E := Calls) (ε := Exn) Looked
    fun past => (⟨.db .pending, .ok waiting⟩ : Calls.Done) ∈ past
  have hrows : ∀ now, (sweepRows site now pollDue waiting).Abides Looked
      fun past => (⟨.db .pending, .ok waiting⟩ : Calls.Done) ∈ past := by
    intro now
    refine of_sweepRows hC now pollDue fun row hrow =>
      of_sweepRow hC now pollDue row fun o ho _ hlisted past hpast => ⟨?_, fun x => ?_⟩
    · intro id a hid _
      obtain ⟨rfl, hchannel⟩ := hlisted id a hid
      exact ⟨waiting, hpast, row, hrow, rfl, hchannel⟩
    · cases x <;> exact hK _ _ hpast
  have hclock : (ask .utcnow).Abides Looked fun past : List Calls.Done =>
      (⟨.db .pending, .ok waiting⟩ : Calls.Done) ∈ past :=
    abides_of_issues hK (issues_ask fun _ => looked_of_elsewhere fun _ _ h => nomatch h)
  have hrest := hC.bind hclock hrows
  exact (hrest (past ++ [⟨.db .pending, .ok waiting⟩]) (by simp)).mono fun _ _ _ => trivial

/-- The coroutines of a deployment. -/
theorem service_looked {site : Site} {p : Prog Unit} (h : Service site p) :
    p.Follows Looked [] fun _ _ => True := by
  refine service_follows (fun o ho past => looked_of_elsewhere (Op.elsewhere_of_worker ho))
    (fun call => ?_) (fun pollDue => ActionService.abides_sweep site pollDue)
    (fun _ _ _ => looked_of_elsewhere fun _ _ h => nomatch h) (fun id a hvia past => ?_)
    (fun o ho past => looked_of_elsewhere (Op.elsewhere_of_outside ho)) h
  · exact abides_of_issues growing_true (ActionService.of_perform
      (Program.issues_compositional _) (fun o h => issues_ask fun past =>
        looked_of_elsewhere (Op.elsewhere_of_attempt h)) call)
  · refine looked_of_elsewhere ?_
    rintro id' a' ⟨⟩ hother
    rw [hvia] at hother
    exact absurd hother (by decide)

/-! ## What approves a row -/

/-- **A row is approved by an approval** that came in time and was not refused. -/
theorem Site.Event.Approved.decided {site : Site} {ev : site.Event} {r : ActionRow}
    (hop : ev.op.OfService) (hev : ev.Happens) (h : ev.Approved r) :
    ∃ a v, ev.Commits (.decide r.id a) v ∧ a.approve = true ∧ refuses ev.time r a = none ∧
      r.expiresAt.all (· ≤ ev.time) = false := by
  obtain ⟨hr, hs, r', hr', hs'⟩ := h
  rcases hev.row_moves hr hr' with rfl | ⟨c, v, hc, hmove⟩
  · rw [hs] at hs'
    cases hs'
  rw [hc.1] at hop
  cases hmove with
  | same =>
    rw [hs] at hs'
    cases hs'
  | noted event payload values =>
    have hnoted : r.status = .approved := hs'
    rw [hs] at hnoted
    cases hnoted
  | moved fromStatuses toStatus event payload values wake hfrom =>
    obtain rfl : toStatus = .approved := hs'
    exact absurd (by decide) hop.lands_elsewhere
  | begun localSwitch hfrom =>
    rw [hs] at hfrom
    rcases hfrom with h | h <;> cases h
  | answered a hok htime =>
    refine ⟨a, v, hc, ?_, hok, htime⟩
    cases happrove : a.approve with
    | true => rfl
    | false =>
      have hrejected : (if a.approve then ActionStatus.approved else .rejected) = .approved := hs'
      rw [happrove] at hrejected
      cases hrejected
  | expired => cases hs'

/-- **Approval channel binding**, over every run of a deployment whose pages keep to the
lists. -/
theorem channels_kept (site : Site) (s : Estate) (d : Config Calls Exn (Estate × List site.Event))
    (hd : site.service.recorded.Reaches (fun _ o ch s => o.Listed (s.1.now + ch.elapsed) s.1.db)
      (Config.idle (s, [])) d) : ChannelsKept d.shared.2 := by
  have hevents := @recorded_events site (fun _ o ch s => o.Listed (s.now + ch.elapsed) s.db) s d hd
  have hlooked := System.recorded_follows (fun _ hp => service_looked hp) hd
  have hstay := System.recorded_between (R := Estate.SubjectsStay) (P := Op.OfService)
    Estate.SubjectsStay.refl (fun _ _ _ => Estate.SubjectsStay.trans)
    (fun _ hp => service_issues hp) (fun ev _ hev => @subjectsStay_step site ev hev) hd
  intro ev hmem r happroved
  obtain ⟨hop, hev, hlisted⟩ := hevents ev hmem
  obtain ⟨a, v, hc, happrove, hok, htime⟩ := happroved.decided hop hev
  refine ⟨a, v, hc, happrove, ?_⟩
  rw [hc.1] at hop
  rcases hop.via with hvia | hvia
  · rw [hc.1] at hlisted
    simp only [Op.Listed, happroved.1] at hlisted
    rw [hvia]
    exact hlisted hvia happrove hok htime
  · obtain ⟨pre, post, hsplit⟩ := List.append_of_mem hmem
    obtain ⟨rows, hread, x, hx, hid, hchannel⟩ := hlooked pre ev post hsplit r.id a hc.1 hvia
    obtain ⟨ch, before, after, hfirst⟩ := System.mem_own hread
    have hearlier : (⟨ev.thread, .db .pending, ch, before, .ok rows, after⟩ : site.Event) ∈
        d.shared.2 := by
      rw [hsplit]
      exact List.mem_append_left _ hfirst
    obtain ⟨-, hread', -⟩ := hevents _ hearlier
    have hrow : after.db.actions.get? x.id = some x := by
      obtain ⟨hrows, hafter⟩ := Prod.mk.inj (Except.ok.inj (Op.step_ok hread'))
      rw [← hafter]
      rw [← hrows] at hx
      exact ActionTable.get?_of_mem (List.mem_filter.mp hx).1
    obtain ⟨r', hr', hsubject⟩ := (hstay pre ev post hsplit).2 _ hfirst x.id x hrow
    rw [hid, happroved.1] at hr'
    cases hr'
    have hchannels : r.subject.channels = x.subject.channels := by rw [hsubject]
    have hsame : r.channels = x.channels := hchannels
    rw [hvia, hsame]
    exact hchannel

/-- An action that lists the pages, approved there. -/
theorem channels_kept_sample : ∃ d : Config Calls Exn (Estate × List servingSite.Event),
    d.shared.1.statuses = [.approved] ∧ ChannelsKept d.shared.2 := by
  have hplay : (servingSite.service.recorded.playIf
      (fun _ o ch s => decide (o.Listed (s.1.now + (ch : Choice).elapsed) s.1.db))
      (Config.idle (servingEstate .approval, []))
      ((.start servingTurn :: List.replicate 27 (.op 0 smooth)) ++
        (.start (ActionService.decideAction 0 (servingAnswer true)) ::
          List.replicate 1 (.op 1 smooth)))).map (fun d => d.shared.1.statuses) =
      some [.approved] := by
    decide +kernel
  obtain ⟨d, hd, hends⟩ := Option.map_eq_some_iff.mp hplay
  exact ⟨d, hends, channels_kept servingSite (servingEstate .approval) d
    (System.playIf_reaches _ (fun _ _ _ _ h => of_decide_eq_true h)
      (.append (.start (Service.work _ _ _) .ops) (.start (Service.decide _ _ rfl rfl) .ops)) hd)⟩

/-- A tenant that takes approvals on the change record only. -/
def recordEstate : Estate :=
  let e := servingEstate .approval
  { e with
    db :=
      { e.db with
        policy :=
          { e.db.policy with
            rules :=
              { e.db.policy.rules with
                channels := [channelServicenow], servicenowGroup := "approvers" } } } }

/-- The event approves a row through a channel that the row does not list. -/
def Site.Event.astray {site : Site} (ev : site.Event) : Bool :=
  match ev.op with
  | .db (.decide id a) =>
    match ev.before.db.actions.get? id, ev.after.db.actions.get? id with
    | some r, some r' => r.status = .pending ∧ r'.status = .approved ∧ a.via ∉ r.channels
    | _, _ => false
  | _ => false

theorem Site.Event.not_kept {site : Site} {ev : site.Event} {tr : List site.Event} (hev : ev ∈ tr)
    (h : ev.astray = true) : ¬ ChannelsKept tr := by
  intro hkept
  unfold astray at h
  split at h
  · rename_i id a hop
    split at h
    · rename_i r r' hr hr'
      obtain ⟨hs, hs', hvia⟩ := of_decide_eq_true h
      have hid := ActionTable.get?_id hr
      subst hid
      obtain ⟨a', v, hc, -, hmem⟩ := hkept ev hev r ⟨hr, hs, r', hr', hs'⟩
      obtain ⟨-, rfl⟩ := DbCall.decide.inj (Op.db.inj (hop.symm.trans hc.1))
      exact hvia hmem
    · cases h
  · cases h

/-- **An approval can come through the wrong channel.**  The tenant takes approvals on the
change record only, and the row says so; the pages approve it all the same. -/
theorem channel_ignored : ¬ ∀ (site : Site) (s : Estate)
    (d : Config Calls Exn (Estate × List site.Event)),
      site.service.recorded.Reaches (System.anyStep _) (Config.idle (s, [])) d →
        ChannelsKept d.shared.2 := by
  intro hall
  have hplay : (servingSite.service.recorded.play (Config.idle (recordEstate, []))
      ((.start servingTurn :: List.replicate 29 (.op 0 smooth)) ++
        (.start (ActionService.decideAction 0 (servingAnswer true)) ::
          List.replicate 1 (.op 1 smooth)))).map (fun d =>
            d.shared.2.any Site.Event.astray) = some true := by
    decide +kernel
  obtain ⟨d, hd, hends⟩ := Option.map_eq_some_iff.mp hplay
  obtain ⟨ev, hev, hastray⟩ := List.any_eq_true.mp hends
  exact Site.Event.not_kept hev hastray (hall servingSite recordEstate d
    (System.play_reaches _
      (.append (.start (Service.work _ _ _) .ops) (.start (Service.decide _ _ rfl rfl) .ops)) hd))

end L1Agent
