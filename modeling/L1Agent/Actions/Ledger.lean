import L1Agent.Actions.Lifecycle
import L1Agent.Actions.Service

/-! # Rows, grants and the history of what was done

A `Ledger` is what the shared state says about actions.  `Regular` is what holds of it in
every run, whatever fails: a write or a rollback is licensed at most once for a row, the
licence is in the history before the grant, and a write was made under a grant that the
coroutine itself minted for it.  `Grows` is what each coroutine does to it.

`Truthful` relates the status of a row to what was done at the target.  It is not kept in
every run; what else it takes is said where a run is considered.

A ledger stays `Regular` when a row is updated (`Regular.put`), when a grant is minted, and when a
write is made under a grant of the coroutine itself (`Regular.wrote`); and where there is no
licence, no write has been made (`Regular.not_performed`).
-/
namespace L1Agent

/-- What the shared state says about actions. -/
structure Ledger where
  actions : ActionTable
  issued : List Issued
  deeds : List Entry

/-- The part of the shared state that is about actions. -/
def Estate.ledger (s : Estate) : Ledger := ⟨s.db.actions, s.issued, s.deeds⟩

/-! ## The history -/

/-- The deed that licenses a grant. -/
def Deed.licence : Purpose → Nat → Deed
  | .write => .authorised
  | .rollback => .rollbackAuthorised

/-- The nonce of the grant that a write was invoked under. -/
def Deed.nonce? : Deed → Option String
  | .wrote _ _ nonce _ _ _ _ => some nonce
  | _ => none

/-- A write that was answered with success. -/
def Deed.Accepts (p : Purpose) (a : Nat) : Deed → Prop
  | .wrote q b _ _ _ _ (.ok answer) => q = p ∧ b = a ∧ answer.success = true
  | _ => False

/-- A write that was performed at the target. -/
def Deed.Performs (p : Purpose) (a : Nat) : Deed → Prop
  | .wrote q b _ _ _ performed _ => q = p ∧ b = a ∧ performed = true
  | _ => False

/-- The answer of a read shows what it was made for. -/
def Looking.Shown (site : Site) (l : Looking) (answer : CallAnswer) : Prop :=
  answer.status = .success ∧ ∃ result, answer.result = some result ∧
    ActionService.holds site l.assertion result l.parameters = .ok true

/-- A read that shows that the write was made. -/
def Deed.Shows (site : Site) (a : Nat) : Deed → Prop
  | .looked l answer => l.action = a ∧ l.Shown site answer
  | _ => False

/-- A read that does not show that the write was made. -/
def Deed.Hides (site : Site) (a : Nat) : Deed → Prop
  | .looked l answer => l.action = a ∧ ¬ l.Shown site answer
  | _ => False

namespace Ledger

/-- Coroutine `t` did this. -/
def Did (l : Ledger) (t : Nat) (d : Deed) : Prop := ⟨t, d⟩ ∈ l.deeds

/-- Some coroutine did this. -/
def Done (l : Ledger) (d : Deed) : Prop := ∃ t, l.Did t d

/-- Something of the one kind was done, and something of the other kind after it. -/
def After (l : Ledger) (first second : Deed → Prop) : Prop :=
  ∃ x y : Entry, first x.deed ∧ second y.deed ∧ [x, y].Sublist l.deeds

/-- The write or the rollback of the action was answered with success. -/
def Accepted (l : Ledger) (p : Purpose) (a : Nat) : Prop := ∃ e ∈ l.deeds, e.deed.Accepts p a

/-- The write or the rollback of the action was performed. -/
def Performed (l : Ledger) (p : Purpose) (a : Nat) : Prop := ∃ e ∈ l.deeds, e.deed.Performs p a

/-- A read made after the write was authorised shows it. -/
def Shown (site : Site) (l : Ledger) (a : Nat) : Prop :=
  l.After (· = .authorised a) (Deed.Shows site a)

/-- A read made after the write was accepted does not show it. -/
def NotShown (site : Site) (l : Ledger) (a : Nat) : Prop :=
  l.After (Deed.Accepts .write a) (Deed.Hides site a)

end Ledger

/-! ## What holds in every run -/

/-- The digests are of the row's own capability and parameters. -/
structure ActionRow.Digested (site : Site) (r : ActionRow) : Prop where
  call : r.callDigest = L1Agent.callDigest site.sha r.capabilityId r.parameters
  action : ∃ (incident : Incident) (sop : SOP), sop.sopId = r.sopKey ∧
    sop.contentHash = r.sopHash ∧
    r.actionHash = L1Agent.actionHash site incident sop r.capabilityId r.parameters

/-- The columns of a row agree. -/
structure ActionRow.Regular (site : Site) (r : ActionRow) : Prop where
  begun : r.executionStartedAt.isSome = r.status.begun
  completed : r.completedAt.isSome = r.status.isFinal
  digested : r.Digested site

/-- The statuses in which the write, or the rollback, may have been licensed. -/
def Purpose.reached : Purpose → ActionStatus → Bool
  | .write => ActionStatus.begun
  | .rollback => ActionStatus.undoing

namespace Ledger

/-- What the history says of the licences, and the rows with it. -/
structure Licences (l : Ledger) : Prop where
  authorised : ∀ a r, l.actions.get? a = some r → r.status.begun = true →
    l.Done (.authorised a)
  reached : ∀ p a, l.Done (.licence p a) →
    ∃ r, l.actions.get? a = some r ∧ p.reached r.status = true
  once : ∀ p a, l.deeds.Pairwise fun x y => x.deed = .licence p a → y.deed ≠ .licence p a

/-- What the grants are for. -/
structure Grants (l : Ledger) : Prop where
  licensed : ∀ i ∈ l.issued, l.Did i.thread (.licence i.purpose i.action)
  forRow : ∀ i ∈ l.issued, i.purpose = .write → ∃ r, l.actions.get? i.action = some r ∧
    i.grant.capabilityId = r.capabilityId ∧ i.grant.callDigest = r.callDigest
  once : l.issued.Pairwise fun i j => i.purpose = j.purpose → i.action ≠ j.action
  nonces : l.issued.Pairwise fun i j => i.grant.nonce ≠ j.grant.nonce

/-- The grant that a write was made under. -/
def GrantedTo (site : Site) (t : Nat) (i : Issued) : Deed → Prop
  | .wrote p a nonce capabilityId parameters _ _ => i.purpose = p ∧ i.action = a ∧
      i.thread = t ∧ i.grant.nonce = nonce ∧ i.grant.capabilityId = capabilityId ∧
      i.grant.callDigest = callDigest site.sha capabilityId parameters
  | _ => False

/-- What the history says of the writes. -/
structure Writes (site : Site) (l : Ledger) : Prop where
  granted : ∀ e ∈ l.deeds, ∀ n, e.deed.nonce? = some n →
    ∃ i ∈ l.issued, GrantedTo site e.thread i e.deed
  once : ∀ n, l.deeds.Pairwise fun x y => x.deed.nonce? = some n → y.deed.nonce? ≠ some n

/-- **What holds in every run.** -/
structure Regular (site : Site) (l : Ledger) : Prop where
  row : ∀ a r, l.actions.get? a = some r → r.Regular site
  licences : l.Licences
  grants : l.Grants
  writes : l.Writes site

/-- **What a coroutine does to the ledger**: a row stays, and goes on; the history and
the grants grow by what the coroutine itself has done. -/
structure Grows (t : Nat) (l l' : Ledger) : Prop where
  rows : ∀ a r, l.actions.get? a = some r → ∃ r', l'.actions.get? a = some r' ∧ r.Later r'
  deeds : ∃ ds, l'.deeds = l.deeds ++ ds ∧ ∀ e ∈ ds, e.thread = t
  issued : ∃ is, l'.issued = l.issued ++ is ∧ ∀ i ∈ is, i.thread = t

theorem Grows.refl (t : Nat) (l : Ledger) : l.Grows t l where
  rows a r hr := ⟨r, hr, .refl r⟩
  deeds := ⟨[], by simp, by simp⟩
  issued := ⟨[], by simp, by simp⟩

variable {site : Site} {l l' : Ledger} {t u : Nat}

/-! ## What a growing ledger keeps -/

theorem Grows.did {d : Deed} (h : l.Grows t l') (hd : l.Did u d) : l'.Did u d := by
  obtain ⟨ds, hds, -⟩ := h.deeds
  rw [Did, hds]
  exact List.mem_append_left _ hd

theorem Grows.done {d : Deed} (h : l.Grows t l') (hd : l.Done d) : l'.Done d :=
  hd.imp fun _ hu => h.did hu

/-- What another coroutine did was there before. -/
theorem Grows.did_other {d : Deed} (h : l.Grows t l') (hut : u ≠ t) (hd : l'.Did u d) :
    l.Did u d := by
  obtain ⟨ds, hds, hthread⟩ := h.deeds
  rw [Did, hds] at hd
  rcases List.mem_append.mp hd with hd | hd
  · exact hd
  · exact absurd (hthread _ hd) hut

theorem Grows.mem_issued {i : Issued} (h : l.Grows t l') (hi : i ∈ l.issued) :
    i ∈ l'.issued := by
  obtain ⟨is, his, -⟩ := h.issued
  rw [his]
  exact List.mem_append_left _ hi

theorem Grows.after {P Q : Deed → Prop} (h : l.Grows t l') (ha : l.After P Q) :
    l'.After P Q := by
  obtain ⟨x, y, hx, hy, hsub⟩ := ha
  obtain ⟨ds, hds, -⟩ := h.deeds
  exact ⟨x, y, hx, hy, by rw [hds]; exact hsub.trans (List.sublist_append_left _ _)⟩

theorem Grows.accepted {p : Purpose} {a : Nat} (h : l.Grows t l') (ha : l.Accepted p a) :
    l'.Accepted p a := by
  obtain ⟨e, he, hacc⟩ := ha
  exact ⟨e, h.did he, hacc⟩

theorem Grows.performed {p : Purpose} {a : Nat} (h : l.Grows t l') (ha : l.Performed p a) :
    l'.Performed p a := by
  obtain ⟨e, he, hperf⟩ := ha
  exact ⟨e, h.did he, hperf⟩

/-- Something that was done, and now something else. -/
theorem after_append {P Q : Deed → Prop} {d : Deed} {ds : List Entry}
    (hds : l'.deeds = l.deeds ++ ds) (hP : ∃ e ∈ l.deeds, P e.deed) (hQ : Q d)
    (hd : ⟨t, d⟩ ∈ ds) : l'.After P Q := by
  obtain ⟨e, he, hPe⟩ := hP
  refine ⟨e, ⟨t, d⟩, hPe, hQ, ?_⟩
  rw [hds]
  exact (List.singleton_sublist.mpr he).append (List.singleton_sublist.mpr hd)

/-- Of the members with a property that no two of a list share, there is one at most. -/
theorem pairwise_unique {α : Type*} {P : α → Prop} {xs : List α}
    (h : xs.Pairwise fun x y => P x → ¬ P y) {x y : α} (hx : x ∈ xs) (hy : y ∈ xs) (hPx : P x)
    (hPy : P y) : x = y := by
  induction xs with
  | nil => cases hx
  | cons z zs ih =>
    obtain ⟨hz, hzs⟩ := List.pairwise_cons.mp h
    rcases List.mem_cons.mp hx with rfl | hx' <;> rcases List.mem_cons.mp hy with rfl | hy'
    · rfl
    · exact absurd hPy (hz y hy' hPx)
    · exact absurd hPx (hz x hx' hPy)
    · exact ih hzs hx' hy'

/-! ## One licence, one grant, one write -/

/-- Only one coroutine has the licence. -/
theorem Licences.unique (h : l.Licences) {p : Purpose} {a : Nat}
    (ht : l.Did t (.licence p a)) (hu : l.Did u (.licence p a)) : t = u := by
  have heq := pairwise_unique (P := fun e : Entry => e.deed = .licence p a) (h.once p a) ht hu
    rfl rfl
  exact congrArg Entry.thread heq

/-- A grant is known by its purpose and action. -/
theorem Grants.unique (h : l.Grants) {i j : Issued} (hi : i ∈ l.issued) (hj : j ∈ l.issued)
    (hp : i.purpose = j.purpose) (ha : i.action = j.action) : i = j := by
  refine pairwise_unique (P := fun k : Issued => k.purpose = i.purpose ∧ k.action = i.action)
    (h.once.imp fun {x y} hxy => ?_) hi hj ⟨rfl, rfl⟩ ⟨hp.symm, ha.symm⟩
  rintro ⟨hx, hx'⟩ ⟨hy, hy'⟩
  exact hxy (hx.trans hy.symm) (hx'.trans hy'.symm)

/-- The write of an action is made under the action's grant. -/
theorem Writes.issued (h : l.Writes site) {p : Purpose} {a : Nat} {nonce cap : String}
    {ps : Json} {performed : Bool} {answer : Except Exn WriteAnswer}
    (hd : l.Did t (.wrote p a nonce cap ps performed answer)) :
    ∃ i ∈ l.issued, i.purpose = p ∧ i.action = a ∧ i.thread = t ∧ i.grant.nonce = nonce ∧
      i.grant.capabilityId = cap ∧ i.grant.callDigest = callDigest site.sha cap ps :=
  h.granted _ hd nonce rfl

/-- A write is made by the coroutine that has the licence for it. -/
theorem Regular.wrote_licensed (h : l.Regular site) {e : Entry} (he : e ∈ l.deeds) {p : Purpose}
    {a : Nat} (hd : e.deed.Performs p a) : l.Did e.thread (.licence p a) := by
  obtain ⟨u, d⟩ := e
  cases d with
  | wrote q b nonce cap ps performed answer =>
    obtain ⟨rfl, rfl, -⟩ := hd
    obtain ⟨i, hi, rfl, rfl, rfl, -⟩ := h.writes.issued he
    exact h.grants.licensed i hi
  | _ => cases hd

/-- **No licence, no write.** -/
theorem Regular.not_performed (h : l.Regular site) {p : Purpose} {a : Nat} {r : ActionRow}
    (hr : l.actions.get? a = some r) (hreached : p.reached r.status = false) :
    ¬ l.Performed p a := by
  rintro ⟨e, he, hperf⟩
  obtain ⟨r', hr', hstatus⟩ := h.licences.reached p a ⟨e.thread, h.wrote_licensed he hperf⟩
  rw [hr] at hr'
  cases hr'
  rw [hreached] at hstatus
  cases hstatus

/-! ## What each kind of step keeps -/

theorem Later.reached {p : Purpose} {r r' : ActionRow} (h : r.Later r')
    (hr : p.reached r.status = true) : p.reached r'.status = true := by
  cases p with
  | write => exact h.status.begun hr
  | rollback => exact h.status.undoing hr

/-- The licences of a ledger that has grown, where those of its new deeds are the
first of their kind and the rows agree. -/
theorem Licences.grow (h : l.Licences) (g : l.Grows t l') (ds : List Entry)
    (hds : l'.deeds = l.deeds ++ ds) (hlen : ds.length ≤ 1)
    (hbegun : ∀ a r', l'.actions.get? a = some r' → r'.status.begun = true →
      l'.Done (.authorised a))
    (hnew : ∀ e ∈ ds, ∀ p a, e.deed = .licence p a → ¬ l.Done (.licence p a) ∧
      ∃ r', l'.actions.get? a = some r' ∧ p.reached r'.status = true) : l'.Licences where
  authorised := hbegun
  reached p a hdone := by
    obtain ⟨u, hu⟩ := hdone
    rw [Did, hds] at hu
    rcases List.mem_append.mp hu with hu | hu
    · obtain ⟨r, hr, hreached⟩ := h.reached p a ⟨u, hu⟩
      obtain ⟨r', hr', hlater⟩ := g.rows a r hr
      exact ⟨r', hr', Later.reached hlater hreached⟩
    · exact (hnew _ hu p a rfl).2
  once p a := by
    rw [hds]
    refine List.pairwise_append.mpr ⟨h.once p a, ?_, fun x hx y hy hlx hly => ?_⟩
    · match ds, hlen with
      | [], _ => exact .nil
      | [_], _ => exact List.pairwise_singleton _ _
    · refine (hnew y hy p a hly).1 ⟨x.thread, ?_⟩
      rw [Did, ← hlx]
      exact hx

theorem Grants.grow (h : l.Grants) (g : l.Grows t l') (hi : l'.issued = l.issued) :
    l'.Grants where
  licensed i hmem := g.did (h.licensed i (hi ▸ hmem))
  forRow i hmem hp := by
    obtain ⟨r, hr, hcap, hdig⟩ := h.forRow i (hi ▸ hmem) hp
    obtain ⟨r', hr', hlater⟩ := g.rows _ r hr
    have hcap' : r'.subject.capabilityId = r.subject.capabilityId := by rw [hlater.subject]
    have hdig' : r'.subject.callDigest = r.subject.callDigest := by rw [hlater.subject]
    exact ⟨r', hr', hcap.trans hcap'.symm, hdig.trans hdig'.symm⟩
  once := hi ▸ h.once
  nonces := hi ▸ h.nonces

theorem Writes.grow (h : l.Writes site) (g : l.Grows t l') (ds : List Entry)
    (hds : l'.deeds = l.deeds ++ ds) (hno : ∀ e ∈ ds, e.deed.nonce? = none) :
    l'.Writes site where
  granted e he n hn := by
    rw [hds] at he
    rcases List.mem_append.mp he with he | he
    · obtain ⟨i, hi, hgranted⟩ := h.granted e he n hn
      exact ⟨i, g.mem_issued hi, hgranted⟩
    · rw [hno e he] at hn
      cases hn
  once n := by
    rw [hds]
    refine List.pairwise_append.mpr ⟨h.once n, ?_, fun x _ y hy _ => ?_⟩
    · refine List.Pairwise.imp_of_mem (R := fun _ _ => True) (fun {x y} hx _ _ hn => ?_)
        (List.pairwise_of_forall fun _ _ => trivial)
      rw [hno x hx] at hn
      cases hn
    · rw [hno y hy]
      exact fun hn => nomatch hn

/-! ### A row is inserted -/

section Insert
variable {row : ActionRow} {actions : ActionTable}

theorem grows_add (h : l.actions.add row = .ok actions)
    (hnew : l.actions.get? row.id = none) : l.Grows t { l with actions } where
  rows a r hr := by
    refine ⟨r, ?_, .refl r⟩
    rw [ActionTable.add_get? h, if_neg]
    · exact hr
    · rintro rfl
      rw [hnew] at hr
      cases hr
  deeds := ⟨[], by simp, by simp⟩
  issued := ⟨[], by simp, by simp⟩

theorem Regular.add (hreg : l.Regular site) (h : l.actions.add row = .ok actions)
    (hnew : l.actions.get? row.id = none) (hrow : row.Regular site)
    (hbegun : row.status.begun = false) : Regular site { l with actions } := by
  have g : l.Grows 0 { l with actions } := grows_add h hnew
  refine ⟨fun a r hr => ?_, hreg.licences.grow g [] (by simp) (by simp)
    (fun a r hr hb => ?_) (by simp), hreg.grants.grow g rfl,
    hreg.writes.grow g [] (by simp) (by simp)⟩
  · rw [ActionTable.add_get? h] at hr
    split at hr
    · cases hr
      exact hrow
    · exact hreg.row a r hr
  · rw [ActionTable.add_get? h] at hr
    split at hr
    · cases hr
      rw [hbegun] at hb
      cases hb
    · exact hreg.licences.authorised a r hr hb

end Insert

/-! ### A row is updated -/

section Update
variable {r r' : ActionRow} {actions : ActionTable}

/-- What the history gains by an update that licenses a grant. -/
def licensing (t : Nat) (a : Nat) (p : Option Purpose) : List Entry :=
  p.toList.map fun p => ⟨t, .licence p a⟩

theorem grows_put (hr : l.actions.get? r.id = some r) (h : l.actions.put r' = .ok actions)
    (hch : r.Change r') (p : Option Purpose) :
    l.Grows t ⟨actions, l.issued, l.deeds ++ licensing t r.id p⟩ where
  rows a x hx := by
    show ∃ x', actions.get? a = some x' ∧ x.Later x'
    rw [ActionTable.put_get? h (by rw [hch.id_eq]; exact hr), hch.id_eq]
    by_cases ha : a = r.id
    · subst ha
      rw [hr] at hx
      cases hx
      exact ⟨r', by rw [if_pos rfl], hch.later⟩
    · exact ⟨x, by rw [if_neg ha]; exact hx, .refl x⟩
  deeds := by
    refine ⟨_, rfl, fun e he => ?_⟩
    obtain ⟨_, -, rfl⟩ := List.mem_map.mp he
    rfl
  issued := ⟨[], by simp, by simp⟩

/-- **An update of a row.**  A licence goes with it when, and only when, it is the
first of its kind for the row. -/
theorem Regular.put (hreg : l.Regular site) (hr : l.actions.get? r.id = some r)
    (h : l.actions.put r' = .ok actions) (hch : r.Change r') (hrow : r'.Regular site)
    {p : Option Purpose} (hbegun : r'.status.begun = true → r.status.begun = true ∨ p = some .write)
    (hp : ∀ q ∈ p, q.reached r.status = false ∧ q.reached r'.status = true) :
    Regular site ⟨actions, l.issued, l.deeds ++ licensing t r.id p⟩ := by
  have g : l.Grows t ⟨actions, l.issued, l.deeds ++ licensing t r.id p⟩ := grows_put hr h hch p
  have hget : ∀ a, actions.get? a = if a = r.id then some r' else l.actions.get? a := by
    intro a
    rw [ActionTable.put_get? h (by rw [hch.id_eq]; exact hr), hch.id_eq]
  refine ⟨fun a x hx => ?_, hreg.licences.grow g _ rfl ?_ (fun a x hx hb => ?_) ?_,
    hreg.grants.grow g rfl, hreg.writes.grow g _ rfl ?_⟩
  · replace hx : actions.get? a = some x := hx
    rw [hget] at hx
    split at hx
    · cases hx
      exact hrow
    · exact hreg.row a x hx
  · cases p <;> simp [licensing]
  · replace hx : actions.get? a = some x := hx
    rw [hget] at hx
    split at hx
    · rename_i ha
      cases hx
      subst ha
      rcases hbegun hb with hb | rfl
      · exact g.done (hreg.licences.authorised _ r hr hb)
      · exact ⟨t, List.mem_append_right _ (by simp [licensing, Deed.licence])⟩
    · exact g.done (hreg.licences.authorised a x hx hb)
  · rintro e he q a hlic
    obtain ⟨q', hq', rfl⟩ := List.mem_map.mp he
    obtain ⟨rfl, rfl⟩ : q' = q ∧ r.id = a := by
      cases q' <;> cases q <;> simp_all [Deed.licence]
    obtain ⟨hnot, hnow⟩ := hp q' (by simpa using hq')
    refine ⟨fun hdone => ?_, r', by rw [hget, if_pos rfl], hnow⟩
    obtain ⟨x, hx, hreached⟩ := hreg.licences.reached q' r.id hdone
    rw [hr] at hx
    cases hx
    rw [hnot] at hreached
    cases hreached
  · intro e he
    obtain ⟨q, -, rfl⟩ := List.mem_map.mp he
    cases q <;> rfl

end Update

/-! ### A grant is minted -/

theorem grows_issue (i : Issued) : l.Grows i.thread { l with issued := l.issued ++ [i] } where
  rows a r hr := ⟨r, hr, .refl r⟩
  deeds := ⟨[], by simp, by simp⟩
  issued := ⟨[i], rfl, by simp⟩

theorem Regular.issue (hreg : l.Regular site) {i : Issued}
    (hlic : l.Did i.thread (.licence i.purpose i.action))
    (hfor : i.purpose = .write → ∃ r, l.actions.get? i.action = some r ∧
      i.grant.capabilityId = r.capabilityId ∧ i.grant.callDigest = r.callDigest)
    (hnone : ∀ j ∈ l.issued, j.purpose = i.purpose → j.action ≠ i.action)
    (hnonce : ∀ j ∈ l.issued, j.grant.nonce ≠ i.grant.nonce) :
    Regular site { l with issued := l.issued ++ [i] } := by
  have g : l.Grows i.thread { l with issued := l.issued ++ [i] } := grows_issue i
  refine ⟨hreg.row, ⟨hreg.licences.authorised, hreg.licences.reached, hreg.licences.once⟩,
    ⟨fun j hj => ?_, fun j hj => ?_, ?_, ?_⟩, hreg.writes.grow g [] (by simp) (by simp)⟩
  · rcases List.mem_append.mp hj with hj | hj
    · exact hreg.grants.licensed j hj
    · cases List.mem_singleton.mp hj
      exact hlic
  · rcases List.mem_append.mp hj with hj | hj
    · exact hreg.grants.forRow j hj
    · cases List.mem_singleton.mp hj
      exact hfor
  · refine List.pairwise_append.mpr ⟨hreg.grants.once, List.pairwise_singleton _ _,
      fun j hj k hk => ?_⟩
    cases List.mem_singleton.mp hk
    exact hnone j hj
  · refine List.pairwise_append.mpr ⟨hreg.grants.nonces, List.pairwise_singleton _ _,
      fun j hj k hk => ?_⟩
    cases List.mem_singleton.mp hk
    exact hnonce j hj

/-! ### Something is done at a remote party -/

theorem grows_did (t : Nat) (d : Deed) : l.Grows t { l with deeds := l.deeds ++ [⟨t, d⟩] } where
  rows a r hr := ⟨r, hr, .refl r⟩
  deeds := ⟨_, rfl, by simp⟩
  issued := ⟨[], by simp, by simp⟩

/-- A read, or a change record that is closed. -/
theorem Regular.did (hreg : l.Regular site) {d : Deed} (hlic : ∀ p a, d ≠ .licence p a)
    (hnonce : d.nonce? = none) : Regular site { l with deeds := l.deeds ++ [⟨t, d⟩] } := by
  have g : l.Grows t { l with deeds := l.deeds ++ [⟨t, d⟩] } := grows_did t d
  refine ⟨hreg.row, hreg.licences.grow g _ rfl (by simp)
    (fun a r hr hb => g.done (hreg.licences.authorised a r hr hb)) ?_,
    hreg.grants.grow g rfl, hreg.writes.grow g _ rfl ?_⟩
  · intro e he p a hd
    cases List.mem_singleton.mp he
    exact absurd hd (hlic p a)
  · intro e he
    cases List.mem_singleton.mp he
    exact hnonce

/-- **A write** under a grant of the coroutine that no write was made under before. -/
theorem Regular.wrote (hreg : l.Regular site) {i : Issued} (hi : i ∈ l.issued)
    (hfresh : ∀ e ∈ l.deeds, e.deed.nonce? ≠ some i.grant.nonce) {cap : String} {ps : Json}
    (hcap : i.grant.capabilityId = cap) (hdig : i.grant.callDigest = callDigest site.sha cap ps)
    (performed : Bool) (answer : Except Exn WriteAnswer) :
    Regular site { l with deeds := l.deeds ++
      [⟨i.thread, .wrote i.purpose i.action i.grant.nonce cap ps performed answer⟩] } := by
  have g : l.Grows i.thread { l with deeds := l.deeds ++
      [⟨i.thread, .wrote i.purpose i.action i.grant.nonce cap ps performed answer⟩] } :=
    grows_did _ _
  refine ⟨hreg.row, hreg.licences.grow g _ rfl (by simp)
    (fun a r hr hb => g.done (hreg.licences.authorised a r hr hb)) ?_,
    hreg.grants.grow g rfl, fun e he n hn => ?_, fun n => ?_⟩
  · intro e he p a hd
    cases List.mem_singleton.mp he
    cases p <;> cases hd
  · rcases List.mem_append.mp he with he | he
    · exact hreg.writes.granted e he n hn
    · cases List.mem_singleton.mp he
      exact ⟨i, hi, rfl, rfl, rfl, rfl, hcap, hdig⟩
  · refine List.pairwise_append.mpr ⟨hreg.writes.once n, List.pairwise_singleton _ _,
      fun x hx y hy hxn hyn => ?_⟩
    cases List.mem_singleton.mp hy
    cases hyn
    exact hfresh x hx hxn

end Ledger
end L1Agent
