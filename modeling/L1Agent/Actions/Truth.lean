import L1Agent.Actions.Ledger

/-! # What a status says of the target

`RowTruth` is what the status of a row says of the write and of the rollback.  A coroutine
that holds a licence goes on relying on its row: no other coroutine moves the row, save to
say that the write shows at the target, or that nothing is known (`Overtaken`).  That is
what the others respect (`Respects`), and it is what a write under the licence needs to
keep the statuses true.

`Owns.other` says that what the others respect lasts, and `Truthful.wrote` that a write under the
licence leaves the statuses true: the row does not say yet what became of it.
-/
namespace L1Agent

/-- The status of an action while the write, or the rollback, may be under way. -/
def Purpose.held : Purpose → ActionStatus
  | .write => .executing
  | .rollback => .rollingBack

/-- The unknown mark. -/
def ActionRow.unknown (r : ActionRow) : Bool := r.result.any (·.unknown)

/-- The row was ended by a coroutine that did not know what became of the write, or
found that it shows. -/
def ActionRow.Overtaken (p : Purpose) (r : ActionRow) : Prop :=
  (p = .write ∧ r.status = .verified) ∨ (r.status = .failed ∧ r.unknown = true)

/-- The row is as the holder of the licence left it, or was overtaken. -/
def ActionRow.Held (p : Purpose) (r : ActionRow) : Prop := r.status = p.held ∨ r.Overtaken p

theorem ActionRow.Overtaken.later {p : Purpose} {r r' : ActionRow} (h : r.Overtaken p)
    (hl : r.Later r') : r'.Overtaken p := by
  rcases h with ⟨hp, hs⟩ | ⟨hs, hu⟩
  · obtain ⟨hs', -⟩ := hl.final (by rw [hs]; rfl)
    exact .inl ⟨hp, hs'.trans hs⟩
  · obtain ⟨hs', hres⟩ := hl.final (by rw [hs]; rfl)
    refine .inr ⟨hs'.trans hs, ?_⟩
    rw [unknown, hres]
    exact hu

namespace Ledger

/-- There is no doubt about the write, or the rollback: it was answered with success, or
it was not performed. -/
def Sure (l : Ledger) (p : Purpose) (a : Nat) : Prop := l.Accepted p a ∨ ¬ l.Performed p a

/-- What the status of a row says. -/
def RowTruth (site : Site) (l : Ledger) (r : ActionRow) : Prop :=
  match r.status with
  | .executed => l.Accepted .write r.id
  | .verified => l.Shown site r.id
  | .rollingBack => l.Sure .write r.id
  | .rolledBack => l.Sure .write r.id ∧ l.Accepted .rollback r.id ∧ l.Performed .rollback r.id
  | .rollbackFailed => l.Sure .write r.id ∧ ¬ l.Performed .rollback r.id
  | .failed => r.unknown = true ∨ (l.Sure .write r.id ∧
      (¬ l.Performed .write r.id ∨ l.NotShown site r.id) ∧ ¬ l.Performed .rollback r.id)
  | _ => True

/-- The statuses are true, and a change record is closed as successful only for an
action that is verified. -/
structure Truthful (site : Site) (l : Ledger) : Prop where
  row : ∀ a r, l.actions.get? a = some r → l.RowTruth site r
  closed : ∀ a, l.Done (.closed a true) → ∃ r, l.actions.get? a = some r ∧ r.status = .verified

/-- What coroutine `t` leaves to the others: the rows they hold a licence for. -/
def Respects (t : Nat) (l l' : Ledger) : Prop :=
  ∀ u p a r r', u ≠ t → l.Did u (.licence p a) → l.actions.get? a = some r →
    l'.actions.get? a = some r' → r.status = p.held → r'.Held p

/-- `t` has the licence, and the row is as `t` left it or was overtaken. -/
def Owns (t : Nat) (p : Purpose) (a : Nat) (l : Ledger) : Prop :=
  l.Did t (.licence p a) ∧ ∃ r, l.actions.get? a = some r ∧ r.Held p

variable {site : Site} {l l' : Ledger} {t u : Nat} {r r' : ActionRow}

/-- **What others respect** lasts. -/
theorem Owns.other {p : Purpose} {a : Nat} (h : l.Owns t p a) (htu : t ≠ u)
    (g : l.Grows u l') (hresp : l.Respects u l') : l'.Owns t p a := by
  obtain ⟨hlic, r, hr, hheld⟩ := h
  obtain ⟨r', hr', hlater⟩ := g.rows a r hr
  refine ⟨g.did hlic, r', hr', ?_⟩
  rcases hheld with hs | hover
  · exact hresp t p a r r' htu hlic hr hr' hs
  · exact .inr (hover.later hlater)

theorem respects_of_rows (h : l'.actions = l.actions) : l.Respects t l' := by
  intro u p a r r' _ _ hr hr' hs
  rw [h, hr] at hr'
  cases hr'
  exact .inl hs

theorem respects_add {row : ActionRow} {actions : ActionTable}
    (h : l.actions.add row = .ok actions) (hnew : l.actions.get? row.id = none) :
    l.Respects t { l with actions } := by
  intro u p a x x' _ _ hx hx' hs
  rw [ActionTable.add_get? h, if_neg, hx] at hx'
  · cases hx'
    exact .inl hs
  · rintro rfl
    rw [hnew] at hx
    cases hx

/-- An update respects the others when the row is not held, or `t` holds it, or it only
says what anyone may say. -/
theorem respects_put {actions : ActionTable} (hr : l.actions.get? r.id = some r)
    (h : l.actions.put r' = .ok actions) (hch : r.Change r')
    (hsay : ∀ p, r.status = p.held → l.Did t (.licence p r.id) ∨ r'.Held p)
    (hlic : l.Licences) {is : List Issued} {ds : List Entry} : l.Respects t ⟨actions, is, ds⟩ := by
  intro u p a x x' hut hdid hx hx' hs
  replace hx' : actions.get? a = some x' := hx'
  rw [ActionTable.put_get? h (by rw [hch.id_eq]; exact hr), hch.id_eq] at hx'
  split at hx'
  · rename_i ha
    subst ha
    rw [hr] at hx
    cases hx
    cases hx'
    rcases hsay p hs with ht | hheld
    · exact absurd (hlic.unique hdid ht) hut
    · exact hheld
  · rw [hx] at hx'
    cases hx'
    exact .inl hs

/-! ## What each kind of step keeps -/

theorem Grows.sure {p : Purpose} {a : Nat} (g : l.Grows t l') (h : l.Sure p a)
    (hno : l'.Performed p a → l.Performed p a) : l'.Sure p a := by
  rcases h with h | h
  · exact .inl (g.accepted h)
  · exact .inr fun hp => h (hno hp)

/-- What a row says stays true as long as nothing is performed for it. -/
theorem RowTruth.grow (h : l.RowTruth site r) (g : l.Grows t l')
    (hno : ∀ p, l'.Performed p r.id → l.Performed p r.id) : l'.RowTruth site r := by
  unfold RowTruth at h ⊢
  split
  case h_1 hs =>
    rw [hs] at h
    exact g.accepted h
  case h_2 hs =>
    rw [hs] at h
    exact g.after h
  case h_3 hs =>
    rw [hs] at h
    exact g.sure h (hno _)
  case h_4 hs =>
    rw [hs] at h
    exact ⟨g.sure h.1 (hno _), g.accepted h.2.1, g.performed h.2.2⟩
  case h_5 hs =>
    rw [hs] at h
    exact ⟨g.sure h.1 (hno _), fun hp => h.2 (hno _ hp)⟩
  case h_6 hs =>
    rw [hs] at h
    rcases h with h | ⟨hsure, hwrite, hroll⟩
    · exact .inl h
    · refine .inr ⟨g.sure hsure (hno _), ?_, fun hp => hroll (hno _ hp)⟩
      exact hwrite.imp (fun hn hp => hn (hno _ hp)) g.after
  case h_7 => trivial

/-- A row whose write has not begun says nothing. -/
theorem rowTruth_of_not_begun (h : r.status.begun = false) : l.RowTruth site r := by
  unfold RowTruth
  revert h
  cases r.status <;> simp [ActionStatus.begun]

theorem Performed.append {p : Purpose} {a : Nat} {ds : List Entry}
    (hds : l'.deeds = l.deeds ++ ds) (hno : ∀ e ∈ ds, ¬ e.deed.Performs p a)
    (h : l'.Performed p a) : l.Performed p a := by
  obtain ⟨e, he, hperf⟩ := h
  rw [hds] at he
  rcases List.mem_append.mp he with he | he
  · exact ⟨e, he, hperf⟩
  · exact absurd hperf (hno e he)

theorem not_performs_of_nonce {p : Purpose} {a : Nat} {d : Deed} (h : d.nonce? = none) :
    ¬ d.Performs p a := by
  cases d <;> simp_all [Deed.nonce?, Deed.Performs]

/-- The rows as they were, and a history with nothing about a target in it. -/
theorem Truthful.add (h : l.Truthful site) {row : ActionRow} {actions : ActionTable}
    (hadd : l.actions.add row = .ok actions) (hnew : l.actions.get? row.id = none)
    (hbegun : row.status.begun = false) : Truthful site { l with actions } := by
  have g : l.Grows 0 { l with actions } := grows_add hadd hnew
  refine ⟨fun a x hx => ?_, fun a hdone => ?_⟩
  · rw [ActionTable.add_get? hadd] at hx
    split at hx
    · cases hx
      exact rowTruth_of_not_begun hbegun
    · exact (h.row a x hx).grow g fun _ hp => hp
  · obtain ⟨x, hx, hs⟩ := h.closed a hdone
    obtain ⟨x', hx', hlater⟩ := g.rows a x hx
    exact ⟨x', hx', (hlater.final (by rw [hs]; rfl)).1.trans hs⟩

theorem not_performs_licensing {p : Purpose} {a : Nat} {q : Option Purpose} {e : Entry}
    (he : e ∈ licensing t r.id q) : ¬ e.deed.Performs p a := by
  obtain ⟨q', -, rfl⟩ := List.mem_map.mp he
  cases q' <;> exact fun h => h.elim

theorem Truthful.put (h : l.Truthful site) {actions : ActionTable}
    (hr : l.actions.get? r.id = some r) (hput : l.actions.put r' = .ok actions)
    (hch : r.Change r') {q : Option Purpose} (hrow : l.RowTruth site r') :
    Truthful site ⟨actions, l.issued, l.deeds ++ licensing t r.id q⟩ := by
  have g : l.Grows t ⟨actions, l.issued, l.deeds ++ licensing t r.id q⟩ :=
    grows_put hr hput hch q
  have hno : ∀ p a, Performed ⟨actions, l.issued, l.deeds ++ licensing t r.id q⟩ p a →
      l.Performed p a :=
    fun p a => Performed.append rfl fun e he => not_performs_licensing he
  refine ⟨fun a x hx => ?_, fun a hdone => ?_⟩
  · replace hx : actions.get? a = some x := hx
    rw [ActionTable.put_get? hput (by rw [hch.id_eq]; exact hr)] at hx
    split at hx
    · cases hx
      exact hrow.grow g fun p => hno p _
    · exact (h.row a x hx).grow g fun p => hno p _
  · obtain ⟨v, hv⟩ := hdone
    have hold : l.Done (.closed a true) := by
      rcases List.mem_append.mp hv with hv | hv
      · exact ⟨v, hv⟩
      · obtain ⟨q', -, hq'⟩ := List.mem_map.mp hv
        cases q' <;> cases hq'
    obtain ⟨x, hx, hs⟩ := h.closed a hold
    obtain ⟨x', hx', hlater⟩ := g.rows a x hx
    exact ⟨x', hx', (hlater.final (by rw [hs]; rfl)).1.trans hs⟩

theorem Truthful.did (h : l.Truthful site) {d : Deed} (hnonce : d.nonce? = none)
    (hclosed : ∀ a, d = .closed a true → ∃ r, l.actions.get? a = some r ∧ r.status = .verified) :
    Truthful site { l with deeds := l.deeds ++ [⟨t, d⟩] } := by
  have g : l.Grows t { l with deeds := l.deeds ++ [⟨t, d⟩] } := grows_did t d
  refine ⟨fun a x hx => (h.row a x hx).grow g fun p => Performed.append rfl fun e he => ?_,
    fun a hdone => ?_⟩
  · cases List.mem_singleton.mp he
    exact not_performs_of_nonce hnonce
  · obtain ⟨v, hv⟩ := hdone
    rcases List.mem_append.mp hv with hv | hv
    · exact h.closed a ⟨v, hv⟩
    · cases List.mem_singleton.mp hv
      exact hclosed a rfl

/-- **A write under a licence** leaves the statuses true: the row does not say yet what
became of the write, or says that it is not known, or was found verified. -/
theorem Truthful.wrote (h : l.Truthful site) {p : Purpose} {a : Nat} (hown : l.Owns t p a)
    {nonce cap : String} {ps : Json} {performed : Bool} {answer : Except Exn WriteAnswer} :
    Truthful site { l with deeds := l.deeds ++
      [⟨t, .wrote p a nonce cap ps performed answer⟩] } := by
  have g : l.Grows t { l with deeds := l.deeds ++
      [⟨t, .wrote p a nonce cap ps performed answer⟩] } := grows_did _ _
  obtain ⟨-, x, hx, hheld⟩ := hown
  have hother : ∀ q b, (q = p → b ≠ a) → Performed { l with deeds := l.deeds ++
      [⟨t, .wrote p a nonce cap ps performed answer⟩] } q b → l.Performed q b := by
    intro q b hne
    refine Performed.append rfl fun e he hperf => ?_
    cases List.mem_singleton.mp he
    exact hne hperf.1.symm hperf.2.1.symm
  refine ⟨fun b y hy => ?_, fun b hdone => ?_⟩
  · by_cases hb : b = a
    · subst hb
      replace hy : l.actions.get? b = some y := hy
      rw [hx] at hy
      cases hy
      obtain rfl := ActionTable.get?_id hx
      have hrow := h.row _ x hx
      unfold RowTruth at hrow ⊢
      rcases hheld with hs | ⟨rfl, hs⟩ | ⟨hs, hu⟩
      · cases p with
        | write => rw [hs]; trivial
        | rollback =>
          rw [hs] at hrow ⊢
          exact g.sure hrow (hother .write _ fun hq => by cases hq)
      · rw [hs] at hrow ⊢
        exact g.after hrow
      · rw [hs]
        exact .inl hu
    · refine (h.row b y hy).grow g fun q => hother q _ fun _ => ?_
      rw [ActionTable.get?_id hy]
      exact hb
  · obtain ⟨v, hv⟩ := hdone
    rcases List.mem_append.mp hv with hv | hv
    · exact h.closed b ⟨v, hv⟩
    · cases List.mem_singleton.mp hv

end Ledger
end L1Agent
