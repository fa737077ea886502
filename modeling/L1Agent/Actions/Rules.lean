import L1Agent.Actions.Protocol

/-! # The rules of the pipeline's operations

One rule for each operation that touches the ledger: from what the coroutine must know, to
what it knows afterwards.  `Known` is what it knows of a row it has read, `Unspent` is a grant
it has not used, `Unperformed` is a write of its own that was not performed.

The compare-and-set is the one that others interfere with (`Spec.transition`).  From
`Spec.authoriseExecution` the coroutine has the licence, `Spec.mint` gives the grant for it once,
`keeps_write` is the write, and `Spec.read` and `Spec.close` are what comes after it.
-/
namespace L1Agent
open Interleaving

/-! ## What a coroutine knows -/

namespace Ledger

/-- What is known of a row from having read it. -/
structure Known (hon : Prop) (t : Nat) (r : ActionRow) (l : Ledger) : Prop where
  was : ∃ r', l.actions.get? r.id = some r' ∧ r.Later r'
  begun : r.status.begun = true → l.Done (.authorised r.id)
  accepted : hon → r.status = .executed → l.Accepted .write r.id
  noUndo : r.status.undoing = false → ¬ l.Did t (.rollbackAuthorised r.id)

/-- A licence under which no grant has been minted. -/
structure Bare (t : Nat) (p : Purpose) (a : Nat) (l : Ledger) : Prop where
  licence : l.Did t (.licence p a)
  none : ∀ i ∈ l.issued, i.purpose = p → i.action ≠ a

/-- A grant of the coroutine's own that has not been used. -/
structure Unspent (t : Nat) (i : Issued) (l : Ledger) : Prop where
  mem : i ∈ l.issued
  mine : i.thread = t
  unused : ∀ e ∈ l.deeds, e.deed.nonce? ≠ some i.grant.nonce

/-- A write that only `t` could make, and that was not performed. -/
structure Unperformed (t : Nat) (p : Purpose) (a : Nat) (l : Ledger) : Prop where
  licence : l.Did t (.licence p a)
  not : ¬ l.Performed p a

/-- The write of the action is no longer under way. -/
def Past (a : Nat) (l : Ledger) : Prop :=
  ∃ r, l.actions.get? a = some r ∧ r.status.begun = true ∧ r.status ≠ .executing

variable {site : Site} {hon : Prop} {l l' : Ledger} {t u : Nat} {p : Purpose} {a : Nat}
  {r : ActionRow} {i : Issued}

/-- **A row that is read** is seen. -/
theorem Good.known (h : l.Good site hon) (hr : l.actions.get? a = some r) : Known hon t r l := by
  obtain rfl := ActionTable.get?_id hr
  refine ⟨⟨r, hr, .refl r⟩, h.regular.licences.authorised _ r hr, fun hh hs => ?_, fun hs hd => ?_⟩
  · have htruth := (h.truthful hh).row _ r hr
    unfold RowTruth at htruth
    rw [hs] at htruth
    exact htruth
  · obtain ⟨x, hx, hreached⟩ := h.regular.licences.reached .rollback r.id ⟨t, hd⟩
    rw [hr] at hx
    cases hx
    rw [Purpose.reached, hs] at hreached
    cases hreached

theorem Known.past (h : Known hon t r l) (hb : r.status.begun = true) (hne : r.status ≠ .executing) :
    l.Past r.id := by
  obtain ⟨r', hr', hlater⟩ := h.was
  exact ⟨r', hr', hlater.status.begun hb, hlater.status.past hb hne⟩

theorem Unspent.licence (h : l.Good site hon) (hi : Unspent t i l) :
    l.Did t (.licence i.purpose i.action) := by
  have hlic := h.regular.grants.licensed i hi.mem
  rw [hi.mine] at hlic
  exact hlic

/-- While the grant is unused nothing was performed under it. -/
theorem Unspent.unperformed (h : l.Good site hon) (hi : Unspent t i l) :
    Unperformed t i.purpose i.action l := by
  refine ⟨hi.licence h, ?_⟩
  rintro ⟨⟨v, d⟩, he, hperf⟩
  cases d with
  | wrote q b nonce cap ps performed answer =>
    obtain ⟨rfl, rfl, -⟩ := hperf
    obtain ⟨j, hj, hp, ha, -, hn, -⟩ := h.regular.writes.issued he
    obtain rfl := h.regular.grants.unique hj hi.mem hp ha
    exact hi.unused _ he (congrArg some hn.symm)
  | _ => cases hperf

/-- What `p` has reached, its licence allows. -/
theorem Good.reached_of_did (h : l.Good site hon) (hd : l.Did t (.licence p a))
    (hr : l.actions.get? a = some r) : p.reached r.status = true := by
  obtain ⟨x, hx, hreached⟩ := h.regular.licences.reached p a ⟨t, hd⟩
  rw [hr] at hx
  cases hx
  exact hreached

end Ledger

open Ledger

section Steadiness
variable {site : Site} {hon : Prop} {t : Nat} {p : Purpose} {a : Nat} {r : ActionRow} {i : Issued}

theorem Known.steady : Steady site hon t (Known hon t r) := by
  refine steady_of fun u l l' htu _ _ hm h => ⟨?_, fun hb => hm.grows.done (h.begun hb),
    fun hh hs => hm.grows.accepted (h.accepted hh hs),
    fun hs hd => h.noUndo hs (hm.grows.did_other htu hd)⟩
  obtain ⟨r', hr', hlater⟩ := h.was
  obtain ⟨r'', hr'', hlater'⟩ := hm.grows.rows _ r' hr'
  exact ⟨r'', hr'', hlater.trans hlater'⟩

theorem Bare.steady : Steady site hon t (Bare t p a) := by
  refine steady_of fun u l l' htu _ hgood hm h => ⟨hm.grows.did h.licence, fun j hj hp ha => ?_⟩
  subst hp ha
  have hlic := hgood.regular.grants.licensed j hj
  have hmine := hgood.regular.licences.unique (hm.grows.did h.licence) hlic
  obtain ⟨is, his, hthread⟩ := hm.grows.issued
  rw [his] at hj
  rcases List.mem_append.mp hj with hj | hj
  · exact h.none j hj rfl rfl
  · exact htu (hmine.trans (hthread j hj))

theorem Unspent.steady : Steady site hon t (Unspent t i) := by
  refine steady_of fun u l l' htu _ hgood hm h =>
    ⟨hm.grows.mem_issued h.mem, h.mine, fun e he hn => ?_⟩
  obtain ⟨j, hj, hgranted⟩ := hgood.regular.writes.granted e he _ hn
  have hnonce : j.grant.nonce = i.grant.nonce ∧ j.thread = e.thread := by
    obtain ⟨v, d⟩ := e
    cases d with
    | wrote q b nonce cap ps performed answer =>
      cases hn
      exact ⟨hgranted.2.2.2.1, hgranted.2.2.1⟩
    | _ => cases hn
  have hij : j = i := by
    refine pairwise_unique (P := fun k : Issued => k.grant.nonce = i.grant.nonce)
      (hgood.regular.grants.nonces.imp fun {x y} hxy hx hy => hxy (hx.trans hy.symm)) hj
      (hm.grows.mem_issued h.mem) hnonce.1 rfl
  subst hij
  have het : e.thread = t := hnonce.2.symm.trans h.mine
  have hold : l.Did e.thread e.deed := by
    refine hm.grows.did_other ?_ he
    rw [het]
    exact htu
  exact h.unused e hold hn

theorem Unperformed.steady : Steady site hon t (Unperformed t p a) := by
  refine steady_of fun u l l' htu _ hgood hm h => ⟨hm.grows.did h.licence, ?_⟩
  rintro ⟨e, he, hperf⟩
  have hlic := hgood.regular.wrote_licensed he hperf
  have het := hgood.regular.licences.unique hlic (hm.grows.did h.licence)
  refine h.not ⟨e, ?_, hperf⟩
  refine hm.grows.did_other ?_ he
  rw [het]
  exact htu

theorem Owns.steady : Steady site hon t fun l => hon → Owns t p a l := by
  refine steady_of fun u l l' htu _ _ hm h hh => ?_
  exact (h hh).other htu hm.grows (hm.respects hh)

theorem Past.lasting : Lasting site hon (Past a) := by
  refine lasting_of fun u l l' hg h => ?_
  obtain ⟨r, hr, hb, hne⟩ := h
  obtain ⟨r', hr', hlater⟩ := hg.rows a r hr
  exact ⟨r', hr', hlater.status.begun hb, hlater.status.past hb hne⟩

theorem done_lasting {d : Deed} : Lasting site hon fun l => l.Done d :=
  lasting_of fun _ _ _ hg h => hg.done h

theorem accepted_lasting : Lasting site hon fun l => l.Accepted p a :=
  lasting_of fun _ _ _ hg h => hg.accepted h

theorem after_lasting {P Q : Deed → Prop} : Lasting site hon fun l => l.After P Q :=
  lasting_of fun _ _ _ hg h => hg.after h

theorem exists_lasting : Lasting site hon fun l => ∃ r, l.actions.get? a = some r := by
  refine lasting_of fun u l l' hg h => ?_
  obtain ⟨r, hr⟩ := h
  obtain ⟨r', hr', -⟩ := hg.rows _ r hr
  exact ⟨r', hr'⟩

/-- An ended action stays as it is. -/
theorem ended_lasting {st : ActionStatus} (hst : st.isFinal = true) :
    Lasting site hon fun l => ∃ r, l.actions.get? a = some r ∧ r.status = st := by
  refine lasting_of fun u l l' hg h => ?_
  obtain ⟨r, hr, hs⟩ := h
  obtain ⟨r', hr', hlater⟩ := hg.rows a r hr
  exact ⟨r', hr', (hlater.final (by rw [hs]; exact hst)).1.trans hs⟩

theorem notDid_steady {d : Deed} : Steady site hon t fun l => ¬ l.Did t d :=
  steady_of fun _ _ _ htu _ _ hm h hd => h (hm.grows.did_other htu hd)

theorem Lasting.imp {q : Prop} {A : Ledger → Prop} (h : Lasting site hon A) :
    Lasting site hon fun l => q → A l := Protocol.Persistent.imp h

theorem Lasting.and {A B : Ledger → Prop} (hA : Lasting site hon A)
    (hB : Lasting site hon B) : Lasting site hon fun l => A l ∧ B l :=
  Protocol.Persistent.and hA hB

theorem Steady.imp {q : Prop} {A : Ledger → Prop} (h : Steady site hon t A) :
    Steady site hon t fun l => q → A l := Protocol.Stable.imp h

theorem Steady.or {A B : Ledger → Prop} (hA : Steady site hon t A)
    (hB : Steady site hon t B) : Steady site hon t fun l => A l ∨ B l := Protocol.Stable.or hA hB

/-- The assertion survives the steps of other coroutines, and the remote calls of `t`. -/
structure Apart (site : Site) (hon : Prop) (t : Nat) (F : Ledger → Prop) : Prop where
  steady : Steady site hon t F
  did : ∀ l d, (∀ p a, d ≠ .licence p a) → F l → F { l with deeds := l.deeds ++ [⟨t, d⟩] }

theorem Apart.const (q : Prop) : Apart site hon t fun _ => q := ⟨Steady.const q, fun _ _ _ h => h⟩

/-- A rollback that was not authorised is not authorised by a remote call. -/
theorem noUndo_apart {q : Prop} : Apart site hon t fun l => q → ¬ l.Did t (.rollbackAuthorised a) where
  steady := Steady.imp notDid_steady
  did l d hd h hq hdid := by
    rcases List.mem_append.mp hdid with hdid | hdid
    · exact h hq hdid
    · cases List.mem_singleton.mp hdid
      exact hd .rollback a rfl

end Steadiness

/-! ## Updates of a row -/

section Updates
variable {site : Site} {hon : Prop} {t : Nat} {l : Ledger} {r r' : ActionRow}
  {actions : ActionTable}

theorem ActionRow.Digested.of_subject (h : r.Digested site) (hs : r'.subject = r.subject) :
    r'.Digested site := by
  have hfields : r'.callDigest = r.callDigest ∧ r'.capabilityId = r.capabilityId ∧
      r'.parameters = r.parameters ∧ r'.sopKey = r.sopKey ∧ r'.sopHash = r.sopHash ∧
      r'.actionHash = r.actionHash := by
    have hproj : ∀ {β : Type} (f : ActionRow → β), f r'.subject = f r.subject := by
      intro β f
      rw [hs]
    exact ⟨hproj ActionRow.callDigest, hproj ActionRow.capabilityId, hproj ActionRow.parameters,
      hproj ActionRow.sopKey, hproj ActionRow.sopHash, hproj ActionRow.actionHash⟩
  obtain ⟨hcall, hcap, hparams, hkey, hhash, haction⟩ := hfields
  obtain ⟨hdig, incident, sop, hsop, hsum, hact⟩ := h
  refine ⟨?_, incident, sop, ?_, ?_, ?_⟩
  · rw [hcall, hcap, hparams]
    exact hdig
  · rw [hkey]
    exact hsop
  · rw [hhash]
    exact hsum
  · rw [haction, hcap, hparams]
    exact hact

/-- A row that is moved along the machine, save to begin, stays regular. -/
theorem ActionRow.Regular.moved (h : r.Regular site) (now : Nat) {to' : ActionStatus} (v : Values)
    (hnext : to' ∈ r.status.next) (hne : to' ≠ .executing) : (r.moved now to' v).Regular site where
  begun := by
    rw [ActionRow.moved_executionStartedAt, ActionRow.moved_status, h.begun]
    cases hb : r.status.begun with
    | true => exact (ActionStatus.next_begun hnext hb).symm
    | false =>
      cases hb' : to'.begun with
      | false => rfl
      | true =>
        rw [ActionStatus.begun_of_next hnext hb' hne] at hb
        cases hb
  completed := by
    have hopen : r.completedAt.isSome = false := by
      rw [h.completed, Bool.eq_false_iff]
      intro hfinal
      rw [ActionStatus.next_final.mp hfinal] at hnext
      cases hnext
    show (if to'.isFinal then some now else r.completedAt).isSome = to'.isFinal
    cases to'.isFinal with
    | true => rfl
    | false => exact hopen
  digested := h.digested.of_subject rfl

theorem ActionRow.Regular.with (h : r.Regular site) (v : Values) : (r.with v).Regular site :=
  ⟨h.begun, h.completed, h.digested.of_subject rfl⟩

theorem ActionRow.Regular.begun_at (h : r.Regular site) (now : Nat)
    (hs : r.status = .approved ∨ r.status = .allowed) : (r.begun now).Regular site where
  begun := rfl
  completed := by
    show r.completedAt.isSome = false
    rw [h.completed]
    rcases hs with hs | hs <;> rw [hs] <;> rfl
  digested := h.digested.of_subject rfl

theorem ActionRow.Regular.answered (h : r.Regular site) (now validUntil : Nat) (a : Answer)
    (hs : r.status = .pending) : (r.answered now validUntil a).Regular site where
  begun := by
    show r.executionStartedAt.isSome = (if a.approve then ActionStatus.approved else .rejected).begun
    rw [h.begun, hs]
    cases a.approve <;> rfl
  completed := by
    have hopen := h.completed
    rw [hs] at hopen
    show (if a.approve then r.completedAt else some now).isSome =
      (if a.approve then ActionStatus.approved else .rejected).isFinal
    cases a.approve with
    | true => exact hopen
    | false => rfl
  digested := h.digested.of_subject rfl

theorem ActionRow.Regular.expiredAt (h : r.Regular site) (now : Nat) (hs : r.status = .pending) :
    (r.expiredAt now).Regular site where
  begun := by
    show r.executionStartedAt.isSome = false
    rw [h.begun, hs]
    rfl
  completed := rfl
  digested := h.digested.of_subject rfl

/-- **An update of a row**, with the licence that goes with it, keeps the protocol. -/
theorem Ledger.Good.put (hgood : l.Good site hon) (hr : l.actions.get? r.id = some r)
    (hput : l.actions.put r' = .ok actions) (hch : r.Change r') (hrow : r'.Regular site)
    {q : Option Purpose} (hbegun : r'.status.begun = true → r.status.begun = true ∨ q = some .write)
    (hq : ∀ p ∈ q, p.reached r.status = false ∧ p.reached r'.status = true)
    (htrue : hon → l.RowTruth site r')
    (hsay : hon → ∀ p, r.status = p.held → l.Did t (.licence p r.id) ∨ r'.Held p) :
    Ledger.Good site hon ⟨actions, l.issued, l.deeds ++ licensing t r.id q⟩ ∧
      l.Moves hon t ⟨actions, l.issued, l.deeds ++ licensing t r.id q⟩ ∧
      actions.get? r.id = some r' := by
  refine ⟨⟨hgood.regular.put hr hput hch hrow hbegun hq,
    fun hh => (hgood.truthful hh).put hr hput hch (htrue hh)⟩,
    ⟨grows_put hr hput hch q, fun hh =>
      respects_put hr hput hch (hsay hh) hgood.regular.licences⟩, ?_⟩
  rw [ActionTable.put_get? hput (by rw [hch.id_eq]; exact hr), hch.id_eq, if_pos rfl]

/-- An update that licenses nothing. -/
theorem Ledger.Good.put_plain (hgood : l.Good site hon) (hr : l.actions.get? r.id = some r)
    (hput : l.actions.put r' = .ok actions) (hch : r.Change r') (hrow : r'.Regular site)
    (hbegun : r'.status.begun = true → r.status.begun = true) (htrue : hon → l.RowTruth site r')
    (hsay : hon → ∀ p, r.status = p.held → l.Did t (.licence p r.id) ∨ r'.Held p) :
    Ledger.Good site hon { l with actions } ∧ l.Moves hon t { l with actions } ∧
      actions.get? r.id = some r' := by
  have h := hgood.put (t := t) (q := none) hr hput hch hrow (fun hb => .inl (hbegun hb)) (by simp)
    htrue hsay
  simpa [licensing] using h

/-- An update of a row whose write has not begun. -/
theorem Ledger.Good.put_early (hgood : l.Good site hon) (hr : l.actions.get? r.id = some r)
    (hput : l.actions.put r' = .ok actions) (hch : r.Change r') (hrow : r'.Regular site)
    (hb : r.status.begun = false) (hb' : r'.status.begun = false) :
    Ledger.Good site hon { l with actions } ∧ l.Moves hon t { l with actions } ∧
      actions.get? r.id = some r' := by
  refine hgood.put_plain hr hput hch hrow (fun h => ?_) (fun _ => rowTruth_of_not_begun hb')
    fun _ p hp => ?_
  · rw [hb'] at h
    cases h
  · rw [hp] at hb
    cases p <;> cases hb

end Updates

/-! ## The rules -/

section Operations
variable {site : Site} {entry : Prog Unit → Prop} {hon : Prop}
  {cond : (site.system entry).Cond} {t : Nat} {A : Ledger → Prop}
  (hcond : hon → ∀ t o ch s, cond t o ch s → Op.Faithful t ch s.ledger o)
include hcond

/-- A row that is looked for is seen. -/
theorem Spec.find (runId : Nat) (stepId : String) :
    Spec hon cond t (fun _ => True) (askDb (.find runId stepId))
      fun found l => ∀ row, found = some row → Known hon t row l := by
  refine Spec.ask hcond (Steady.const True) fun s ch v s' hgood _ _ heffect => ?_
  rcases Op.db_effect heffect with ⟨e, rfl, rfl⟩ | ⟨a, rows, hrun, rfl, rfl⟩
  · exact ⟨hgood, .refl hon t _, fun a ha => nomatch ha⟩
  · cases hrun
    refine ⟨hgood, .refl hon t _, ?_⟩
    rintro a ⟨⟩ row hrow
    exact hgood.known (ActionTable.get?_of_mem (List.mem_of_find?_eq_some hrow))

theorem Spec.get (id : Nat) :
    Spec hon cond t (fun _ => True) (askDb (.get id)) fun row l =>
      row.id = id ∧ Known hon t row l := by
  refine Spec.ask hcond (Steady.const True) fun s ch v s' hgood _ _ heffect => ?_
  rcases Op.db_effect heffect with ⟨e, rfl, rfl⟩ | ⟨a, rows, hrun, rfl, rfl⟩
  · exact ⟨hgood, .refl hon t _, fun a ha => nomatch ha⟩
  · simp only [DbCall.run, getAction] at hrun
    split at hrun
    · cases hrun
    · rename_i row hrow
      cases hrun
      refine ⟨hgood, .refl hon t _, ?_⟩
      rintro row ⟨⟩
      exact ⟨ActionTable.get?_id hrow, hgood.known hrow⟩

/-- **The compare-and-set.**  The caller shows that each of its moves is one of the
machine's, that the new status is true, and that it respects the other coroutines. -/
theorem Spec.transition {id : Nat} {fromStatuses : List ActionStatus} {toStatus : ActionStatus}
    {event : String} {payload : List (String × Json)} {values : Values} {wake : Bool}
    {B : Option ActionRow → Ledger → Prop} (hA : Steady site hon t A)
    (hnext : ∀ st ∈ fromStatuses, toStatus ∈ st.next) (hne : toStatus ≠ .executing)
    (hroll : toStatus = .rollingBack → ∀ st ∈ fromStatuses, st.undoing = false)
    (htrue : hon → ∀ (l : Ledger) (r r' : ActionRow), l.Good site hon → A l →
      (∀ ch, (Op.db (.transition id fromStatuses toStatus event payload values wake)).Faithful
        t ch l) → l.actions.get? id = some r → r.status ∈ fromStatuses → r'.id = id →
        r'.status = toStatus → r'.unknown = (values.result.or r.result).any (·.unknown) →
        l.RowTruth site r' ∧ ∀ p, r.status = p.held → l.Did t (.licence p id) ∨ r'.Held p)
    (hsome : ∀ (l l' : Ledger) (r r' : ActionRow), l.Good site hon → l'.Good site hon → A l →
      l.Moves hon t l' → l.actions.get? id = some r → r.status ∈ fromStatuses →
      l'.actions.get? id = some r' → r'.id = id → r'.status = toStatus → l'.issued = l.issued →
      (toStatus = .rollingBack → l'.Did t (.rollbackAuthorised id)) → B (some r') l')
    (hnone : ∀ l : Ledger, l.Good site hon → A l →
      (hon → ∀ ch, (Op.db (.transition id fromStatuses toStatus event payload values
        wake)).Faithful t ch l) →
      (∀ r, l.actions.get? id = some r → r.status ∉ fromStatuses) → B none l) :
    Spec hon cond t A (askDb (.transition id fromStatuses toStatus event payload values wake))
      B := by
  refine Spec.ask hcond hA fun s ch v s' hgood hs hfaith heffect => ?_
  rcases Op.db_effect heffect with ⟨e, rfl, rfl⟩ | ⟨a, rows, hrun, rfl, rfl⟩
  · exact ⟨hgood, .refl hon t _, fun a ha => nomatch ha⟩
  rcases transitionAction_ok hrun with ⟨rfl, rfl, hnot⟩ |
    ⟨r, actions, audit, hr, hfrom, hput, rfl, rfl⟩
  · have hdeed : (DbCall.transition id fromStatuses toStatus event payload values wake).deed
        (none : Option ActionRow) = none := by cases toStatus <;> rfl
    rw [hdeed]
    refine ⟨hgood, .refl hon t _, ?_⟩
    rintro a ⟨⟩
    exact hnone _ hgood hs (fun hh _ => hfaith hh) hnot
  · obtain rfl := ActionTable.get?_id hr
    have hch := ActionRow.moved_change s.now values (hnext _ hfrom)
    have hb : (r.moved s.now toStatus values).status.begun = true → r.status.begun = true :=
      fun hb => ActionStatus.begun_of_next (hnext _ hfrom) hb hne
    have hsay := fun hh => htrue hh s.ledger r (r.moved s.now toStatus values) hgood hs
      (fun _ => hfaith hh) hr hfrom rfl rfl rfl
    by_cases hto : toStatus = .rollingBack
    · subst hto
      obtain ⟨hgood', hmoves, hget⟩ := hgood.put (t := t) (q := some .rollback) hr hput hch
        ((hgood.regular.row _ r hr).moved s.now values (hnext _ hfrom) hne)
        (fun h => .inl (hb h))
        (fun p hp => by cases hp; exact ⟨hroll rfl _ hfrom, rfl⟩)
        (fun hh => (hsay hh).1) (fun hh => (hsay hh).2)
      refine ⟨hgood', hmoves, ?_⟩
      rintro a ⟨⟩
      exact hsome s.ledger _ r _ hgood hgood' hs hmoves hr hfrom hget rfl rfl rfl
        fun _ => List.mem_append_right _ List.mem_cons_self
    · obtain ⟨hgood', hmoves, hget⟩ := hgood.put_plain (t := t) hr hput hch
        ((hgood.regular.row _ r hr).moved s.now values (hnext _ hfrom) hne) hb
        (fun hh => (hsay hh).1) (fun hh => (hsay hh).2)
      have hdeed : (DbCall.transition r.id fromStatuses toStatus event payload values wake).deed
          (some (r.moved s.now toStatus values)) = none := by
        cases toStatus <;> first | rfl | exact absurd rfl hto
      rw [hdeed]
      refine ⟨hgood', hmoves, ?_⟩
      rintro a ⟨⟩
      exact hsome s.ledger _ r _ hgood hgood' hs hmoves hr hfrom hget rfl rfl rfl
        fun h => absurd h hto

/-- `note` leaves the status and what it says. -/
theorem Spec.note {id : Nat} {event : String} {payload : List (String × Json)} {values : Values}
    (hv : values.result = none) :
    Spec hon cond t (fun _ => True) (askDb (.note id event payload values)) fun row l =>
      row.id = id ∧ Known hon t row l := by
  refine Spec.ask hcond (Steady.const True) fun s ch v s' hgood _ _ heffect => ?_
  rcases Op.db_effect heffect with ⟨e, rfl, rfl⟩ | ⟨a, rows, hrun, rfl, rfl⟩
  · exact ⟨hgood, .refl hon t _, fun a ha => nomatch ha⟩
  obtain ⟨r, actions, audit, hr, hput, rfl, rfl⟩ := noteAction_ok hrun
  obtain rfl := ActionTable.get?_id hr
  have hunknown : (r.with values).unknown = r.unknown := by
    rw [ActionRow.unknown, ActionRow.with, hv]
    rfl
  have htrue : hon → s.ledger.RowTruth site (r.with values) := by
    intro hh
    have h := (hgood.truthful hh).row _ r hr
    unfold RowTruth at h ⊢
    rw [hunknown]
    exact h
  obtain ⟨hgood', hmoves, hget⟩ := hgood.put_plain (t := t) hr hput (r.with_change hv)
    ((hgood.regular.row _ r hr).with values) (fun h => h) htrue (fun _ p hp => .inr (.inl hp))
  refine ⟨hgood', hmoves, ?_⟩
  rintro row ⟨⟩
  exact ⟨rfl, hgood'.known hget⟩

/-- A decision is recorded. -/
theorem Spec.recordDecision {d : Decision} {payload : List (String × Json)}
    (hd : ∀ id incident, (d.toRow id incident).Regular site) (hb : d.status.begun = false) :
    Spec hon cond t (fun _ => True) (askDb (.recordDecision d payload)) fun row l =>
      Known hon t row l := by
  refine Spec.ask hcond (Steady.const True) fun s ch v s' hgood _ _ heffect => ?_
  rcases Op.db_effect heffect with ⟨e, rfl, rfl⟩ | ⟨a, rows, hrun, rfl, rfl⟩
  · exact ⟨hgood, .refl hon t _, fun a ha => nomatch ha⟩
  obtain ⟨run, actions, audit, -, rfl, hadd, rfl⟩ := recordDecision_ok hrun
  have hnew := s.db.actions.get?_length
  have hgood' : Ledger.Good site hon { s.ledger with actions } :=
    ⟨hgood.regular.add hadd hnew (hd _ _) hb, fun hh => (hgood.truthful hh).add hadd hnew hb⟩
  refine ⟨hgood', ⟨grows_add hadd hnew, fun _ => respects_add hadd hnew⟩, ?_⟩
  rintro row ⟨⟩
  refine hgood'.known (a := (d.toRow s.db.actions.rows.length run.incidentId).id) ?_
  show actions.get? _ = _
  rw [ActionTable.add_get? hadd, if_pos rfl]

/-- **A write is authorised**: the coroutine has the licence, and no grant has been minted
for the action. -/
theorem Spec.authoriseExecution (id : Nat) (file : Bool) :
    Spec hon cond t (fun _ => True) (askDb (.authoriseExecution id file)) fun answer l =>
      ∀ row, answer = .ok row → Known hon t row l ∧ row.status = .executing ∧
        Bare t .write row.id l ∧ (hon → Owns t .write row.id l) := by
  refine Spec.ask hcond (Steady.const True) fun s ch v s' hgood _ _ heffect => ?_
  rcases Op.db_effect heffect with ⟨e, rfl, rfl⟩ | ⟨a, rows, hrun, rfl, rfl⟩
  · exact ⟨hgood, .refl hon t _, fun a ha => nomatch ha⟩
  rcases authoriseExecution_ok hrun with ⟨rfl, why, rfl⟩ |
    ⟨r, actions, audit, hr, hstatus, -, hput, rfl, rfl⟩
  · refine ⟨hgood, .refl hon t _, ?_⟩
    rintro a ⟨⟩ row hrow
    cases hrow
  · obtain rfl := ActionTable.get?_id hr
    have hb : r.status.begun = false := by rcases hstatus with h | h <;> rw [h] <;> rfl
    obtain ⟨hgood', hmoves, hget⟩ := hgood.put (t := t) (q := some .write) hr hput
      (r.begun_change s.now hstatus) ((hgood.regular.row _ r hr).begun_at s.now hstatus)
      (fun _ => .inr rfl) (fun p hp => by cases hp; exact ⟨hb, rfl⟩) (fun _ => trivial)
      (fun _ p hp => by rw [hp] at hb; cases p <;> cases hb)
    refine ⟨hgood', hmoves, ?_⟩
    rintro a ⟨⟩ row ⟨⟩
    have hdid : Ledger.Did ⟨actions, s.issued, s.deeds ++ licensing t r.id (some .write)⟩ t
        (.licence .write r.id) := List.mem_append_right _ List.mem_cons_self
    refine ⟨hgood'.known hget, rfl, ⟨hdid, fun i hi hp ha => ?_⟩,
      fun _ => ⟨hdid, _, hget, .inl rfl⟩⟩
    have hlic := hgood.regular.grants.licensed i hi
    rw [hp, ha] at hlic
    have hreached := hgood.reached_of_did hlic hr
    rw [Purpose.reached, hb] at hreached
    cases hreached

/-- An approver's answer. -/
theorem Spec.decide (id : Nat) (answer : Answer) :
    Spec hon cond t (fun _ => True) (askDb (.decide id answer)) fun _ _ => True := by
  refine Spec.ask hcond (Steady.const True) fun s ch v s' hgood _ _ heffect => ?_
  rcases Op.db_effect heffect with ⟨e, rfl, rfl⟩ | ⟨a, rows, hrun, rfl, rfl⟩
  · exact ⟨hgood, .refl hon t _, fun a ha => nomatch ha⟩
  obtain ⟨r, after, actions, audit, hr, hrefuses, hafter, hput, rfl⟩ := decideAction_ok hrun
  obtain rfl := ActionTable.get?_id hr
  have hpending := refuses_pending hrefuses
  have hb : r.status.begun = false := by rw [hpending]; rfl
  have hreg := hgood.regular.row _ r hr
  have hkeep : Ledger.Good site hon { s.ledger with actions } ∧
      s.ledger.Moves hon t { s.ledger with actions } := by
    rcases hafter with rfl | ⟨-, rfl⟩
    · obtain ⟨hgood', hmoves, -⟩ := hgood.put_early (t := t) hr hput
        (r.expiredAt_change s.now hpending) (hreg.expiredAt s.now hpending) hb rfl
      exact ⟨hgood', hmoves⟩
    · obtain ⟨hgood', hmoves, -⟩ := hgood.put_early (t := t) hr hput
        (r.answered_change s.now _ answer hpending) (hreg.answered s.now _ answer hpending) hb
        (by cases ha : answer.approve <;> simp [ActionRow.answered, ha, ActionStatus.begun])
      exact ⟨hgood', hmoves⟩
  exact ⟨hkeep.1, hkeep.2, fun _ _ => trivial⟩

/-- **A grant is minted**, once for a licence. -/
theorem Spec.mint {purpose : Purpose} {row : ActionRow} {cap digest : String} {F : Ledger → Prop}
    (hF : Steady site hon t F) (hFi : ∀ l is, F l → F { l with issued := is })
    (hfor : purpose = .write → cap = row.capabilityId ∧ digest = row.callDigest) :
    Spec hon cond t (fun l => (Bare t purpose row.id l ∧ (purpose = .write → Known hon t row l)) ∧
        F l)
      (L1Agent.ask (.mint purpose row cap digest)) fun grant l =>
        (∃ i, Unspent t i l ∧ i.grant = grant ∧ i.purpose = purpose ∧ i.action = row.id) ∧
          Unperformed t purpose row.id l ∧ F l := by
  refine Spec.ask hcond ((Bare.steady.and (Steady.imp Known.steady)).and hF)
    fun s ch v s' hgood hs _ heffect => ?_
  obtain ⟨⟨hbare, hknown⟩, hFs⟩ := hs
  simp only [Op.effect] at heffect
  split at heffect
  · cases heffect
  rename_i hnonce
  cases heffect
  have hfresh : ∀ j ∈ s.issued, j.grant.nonce ≠ ch.nonce := by simpa using hnonce
  have hgood' : Ledger.Good site hon { s.ledger with issued := s.issued ++
      [⟨mintGrant site s.now row cap digest ch.nonce, purpose, row.id, t⟩] } := by
    refine ⟨hgood.regular.issue hbare.licence (fun hp => ?_)
      (fun j hj hp => hbare.none j hj hp) hfresh, fun hh => ⟨(hgood.truthful hh).row,
        (hgood.truthful hh).closed⟩⟩
    obtain ⟨rfl, rfl⟩ := hfor hp
    obtain ⟨r', hr', hlater⟩ := (hknown hp).was
    have hcap : r'.subject.capabilityId = row.subject.capabilityId := by rw [hlater.subject]
    have hdig : r'.subject.callDigest = row.subject.callDigest := by rw [hlater.subject]
    exact ⟨r', hr', hcap.symm, hdig.symm⟩
  have hmoves : s.ledger.Moves hon t { s.ledger with issued := s.issued ++
      [⟨mintGrant site s.now row cap digest ch.nonce, purpose, row.id, t⟩] } :=
    ⟨grows_issue ⟨mintGrant site s.now row cap digest ch.nonce, purpose, row.id, t⟩,
      fun _ => respects_of_rows rfl⟩
  refine ⟨hgood', hmoves, ?_⟩
  rintro grant ⟨⟩
  obtain ⟨i, hi⟩ : ∃ i : Issued, i =
      ⟨mintGrant site s.now row cap digest ch.nonce, purpose, row.id, t⟩ := ⟨_, rfl⟩
  have htoken : Unspent t i { s.ledger with issued := s.issued ++
      [⟨mintGrant site s.now row cap digest ch.nonce, purpose, row.id, t⟩] } := by
    subst hi
    refine ⟨List.mem_append_right _ List.mem_cons_self, rfl, fun e he hn => ?_⟩
    obtain ⟨j, hj, hgranted⟩ := hgood.regular.writes.granted e he _ hn
    obtain ⟨v, d⟩ := e
    cases d with
    | wrote q b nonce cap' ps performed answer =>
      cases hn
      exact hfresh j hj hgranted.2.2.2.1
    | _ => cases hn
  have hunperf := htoken.unperformed hgood'
  subst hi
  exact ⟨⟨_, htoken, rfl, rfl, rfl⟩, hunperf, hFi _ _ hFs⟩

/-- What a coroutine knows of a write it has made, or tried to. -/
def Outcome (hon : Prop) (t : Nat) (p : Purpose) (a : Nat) (r : Except Exn WriteAnswer)
    (l : Ledger) : Prop :=
  match r with
  | .ok x => if x.success then l.Accepted p a ∧ l.Performed p a else hon → Unperformed t p a l
  | .error e => (p = .write ∧ e.kind = "OutcomeUnknown") ∨ (hon → Unperformed t p a l)

omit hcond in
theorem Outcome.success {p : Purpose} {a : Nat} {x : WriteAnswer} {l : Ledger}
    (h : Outcome hon t p a (.ok x) l) (hs : x.success = true) :
    l.Accepted p a ∧ l.Performed p a := by
  simpa [Outcome, hs] using h

omit hcond in
theorem Outcome.failure {p : Purpose} {a : Nat} {x : WriteAnswer} {l : Ledger}
    (h : Outcome hon t p a (.ok x) l) (hs : x.success = false) : hon → Unperformed t p a l := by
  simpa [Outcome, hs] using h

/-- **The write.** -/
theorem keeps_write {i : Issued} {call : WriteCall} {s : Estate} {F : Ledger → Prop}
    (hF : Apart site hon t F)
    (hs : (Unspent t i s.ledger ∧ (hon → Owns t i.purpose i.action s.ledger)) ∧ F s.ledger) :
    (L1Agent.ask (.write i.purpose i.action i.grant call)).Keeps (site.system entry) cond
      (actionProtocol site hon) t (fun r s' => (Outcome hon t i.purpose i.action r s'.ledger ∧
        s'.ledger.Did t (.licence i.purpose i.action) ∧
        (hon → Owns t i.purpose i.action s'.ledger)) ∧ F s'.ledger) s := by
  refine Program.Keeps.call (Steady.and (Steady.and Unspent.steady Owns.steady) hF.steady) hs
    fun s₁ hgood hs₁ ch answer s₂ hc hrun => ?_
  obtain ⟨⟨htoken, howns⟩, hFs⟩ := hs₁
  obtain ⟨v, s₃, heffect, ⟨rfl, rfl⟩ | ⟨e, -, -, hfail⟩⟩ := Op.step_cases hrun
  swap
  · cases hfail
  have hgood : Ledger.Good site hon s₁.ledger := hgood
  have hunperf := htoken.unperformed hgood
  simp only [Op.effect] at heffect
  split at heffect
  · -- The grant is refused, and nothing is sent.
    cases heffect
    exact ⟨hgood, .refl hon t _, ⟨.inr fun _ => hunperf, hunperf.licence, howns⟩, hFs⟩
  · rename_i hrefusal
    split at heffect
    swap
    · cases heffect
    rename_i hhonest
    cases heffect
    obtain ⟨-, hcap, hdig, -⟩ := Grant.refusal_none hrefusal
    obtain rfl := htoken.mine
    have hgood' : Ledger.Good site hon { s₁.ledger with deeds := s₁.deeds ++
        [⟨i.thread, .wrote i.purpose i.action i.grant.nonce call.capabilityId call.parameters
          ch.performed ch.written⟩] } :=
      ⟨hgood.regular.wrote htoken.mem htoken.unused hcap hdig ch.performed ch.written,
        fun hh => (hgood.truthful hh).wrote (howns hh)⟩
    have hgrows : s₁.ledger.Grows i.thread { s₁.ledger with deeds := s₁.deeds ++
        [⟨i.thread, .wrote i.purpose i.action i.grant.nonce call.capabilityId call.parameters
          ch.performed ch.written⟩] } := grows_did _ _
    refine ⟨hgood', ⟨hgrows, fun _ => respects_of_rows rfl⟩, ?_⟩
    have hnot : ch.performed = false → Unperformed i.thread i.purpose i.action
        { s₁.ledger with deeds := s₁.deeds ++ [⟨i.thread, .wrote i.purpose i.action i.grant.nonce
          call.capabilityId call.parameters ch.performed ch.written⟩] } := by
      intro hp
      refine ⟨hgrows.did hunperf.licence, fun hperf => hunperf.not ?_⟩
      refine Performed.append rfl (fun e he hpe => ?_) hperf
      cases List.mem_singleton.mp he
      rw [hp] at hpe
      cases hpe.2.2
    have hFs' : F { s₁.ledger with deeds := s₁.deeds ++ [⟨i.thread, .wrote i.purpose i.action
        i.grant.nonce call.capabilityId call.parameters ch.performed ch.written⟩] } :=
      hF.did _ _ (fun p a hd => by cases p <;> cases hd) hFs
    have hafter : Outcome hon i.thread i.purpose i.action ch.written
          { s₁.ledger with deeds := s₁.deeds ++ [⟨i.thread, .wrote i.purpose i.action
            i.grant.nonce call.capabilityId call.parameters ch.performed ch.written⟩] } ∧
        Ledger.Did { s₁.ledger with deeds := s₁.deeds ++ [⟨i.thread, .wrote i.purpose i.action
            i.grant.nonce call.capabilityId call.parameters ch.performed ch.written⟩] } i.thread
          (.licence i.purpose i.action) ∧
        (hon → Owns i.thread i.purpose i.action { s₁.ledger with deeds := s₁.deeds ++
          [⟨i.thread, .wrote i.purpose i.action i.grant.nonce call.capabilityId call.parameters
            ch.performed ch.written⟩] }) := by
      refine ⟨?_, hgrows.did hunperf.licence, fun hh => ⟨hgrows.did hunperf.licence, (howns hh).2⟩⟩
      have hfaith := fun hh => hcond hh _ _ _ _ hc
      have hlast : ∀ {P : Deed → Prop}, P (.wrote i.purpose i.action i.grant.nonce
          call.capabilityId call.parameters ch.performed ch.written) → ∃ e ∈ s₁.deeds ++
          [⟨i.thread, .wrote i.purpose i.action i.grant.nonce call.capabilityId call.parameters
            ch.performed ch.written⟩], P e.deed :=
        fun hP => ⟨_, List.mem_append_right _ List.mem_cons_self, hP⟩
      cases hw : ch.written with
      | ok x =>
        cases hx : x.success with
        | true =>
          have hperf : ch.performed = true := by
            simpa [Choice.honest, hw, hx] using hhonest
          simp only [Outcome, hx, if_true]
          rw [hw] at hlast
          exact ⟨hlast ⟨rfl, rfl, hx⟩, hlast ⟨rfl, rfl, hperf⟩⟩
        | false =>
          simp only [Outcome, hx, Bool.false_eq_true, if_false]
          intro hh
          rw [hw] at hnot
          refine hnot ?_
          by_contra hp
          rcases hfaith hh (by simpa using hp) with ⟨y, hy, hys⟩ | ⟨-, e, he, -⟩
          · rw [hw] at hy
            cases hy
            rw [hx] at hys
            cases hys
          · rw [hw] at he
            cases he
      | error e =>
        by_cases hkind : i.purpose = .write ∧ e.kind = "OutcomeUnknown"
        · exact .inl hkind
        · refine .inr fun hh => ?_
          rw [hw] at hnot
          refine hnot ?_
          by_contra hp
          rcases hfaith hh (by simpa using hp) with ⟨y, hy, -⟩ | ⟨hpw, e', he, hk⟩
          · rw [hw] at hy
            cases hy
          · rw [hw] at he
            cases he
            exact hkind ⟨hpw, hk⟩
    cases hw : ch.written with
    | ok x =>
      rw [hw] at hafter hFs'
      exact ⟨hafter, hFs'⟩
    | error e =>
      rw [hw] at hafter hFs'
      exact ⟨hafter, hFs'⟩

/-- **A read to verify**: what was done before it was done before it. -/
theorem Spec.read {name : String} {parameters : Json} {stepId : String} {attempt : Nat}
    {look : Looking} {F : Ledger → Prop} (hA : Lasting site hon A) (hF : Apart site hon t F) :
    Spec hon cond t (fun l => A l ∧ F l)
      (L1Agent.ask (.callAdapter name parameters stepId attempt (some look)))
      fun answer l => (A l ∧ F l) ∧ ∀ P : Deed → Prop, (∀ l', A l' → ∃ e ∈ l'.deeds, P e.deed) →
        l.After P (· = .looked look answer) := by
  refine Spec.ask hcond (hA.steady.and hF.steady) fun s ch v s' hgood hs _ heffect => ?_
  cases heffect
  have hgrows : s.ledger.Grows t { s.ledger with deeds := s.deeds ++
      [⟨t, .looked look ch.answer⟩] } := grows_did _ _
  have hgood' : Ledger.Good site hon { s.ledger with deeds := s.deeds ++
      [⟨t, .looked look ch.answer⟩] } :=
    ⟨hgood.regular.did (fun p a hd => by cases p <;> cases hd) rfl,
      fun hh => (hgood.truthful hh).did rfl fun a ha => nomatch ha⟩
  have hmoves : s.ledger.Moves hon t { s.ledger with deeds := s.deeds ++
      [⟨t, .looked look ch.answer⟩] } := ⟨hgrows, fun _ => respects_of_rows rfl⟩
  refine ⟨hgood', hmoves, ?_⟩
  rintro answer ⟨⟩
  refine ⟨⟨hA t s (s.did t (.looked look ch.answer)) hgood hgood' hmoves hs.1,
    hF.did s.ledger _ (fun p a hd => by cases p <;> cases hd) hs.2⟩, fun P hP => ?_⟩
  exact after_append (t := t) rfl (hP _ hs.1) rfl List.mem_cons_self

/-- **A change record is closed**, as successful for an action that is verified. -/
theorem Spec.close {action : Nat} {ref : ChangeRef} {successful : Bool} {notes : String} :
    Spec hon cond t (fun l => successful = true → hon →
        ∃ r, l.actions.get? action = some r ∧ r.status = .verified)
      (L1Agent.ask (.closeChange action ref successful notes)) fun _ _ => True := by
  refine Spec.ask hcond (Lasting.steady (Lasting.imp (Lasting.imp (ended_lasting rfl))))
    fun s ch v s' hgood hs _ heffect => ?_
  cases heffect
  refine ⟨⟨hgood.regular.did (fun p a hd => by cases p <;> cases hd) rfl,
    fun hh => (hgood.truthful hh).did rfl fun a ha => ?_⟩,
    ⟨grows_did _ _, fun _ => respects_of_rows rfl⟩, fun _ _ => trivial⟩
  cases ha
  exact hs rfl hh

end Operations

end L1Agent
