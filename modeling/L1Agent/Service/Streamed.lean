import L1Agent.Service.Stream

/-! # The event stream is complete

The statements are about recorded runs of the writers and the subscribers.  `Chased` is what
becomes of an event from the moment it can be read: it is told to a subscriber whose cursor was
below it, within as many polls as its id says, and never to one whose cursor was past it.

Ids are taken in one order and committed in another, so an event may appear below a cursor: then it
is never sent (`stream_incomplete`).  `stream_complete` says that this is the only way to lose one:
an event whose transaction commits in time (`Op.InTime`) is sent to every subscriber, once and in
order, and an event that does not is sent to none whose cursor was past it.
-/
namespace L1Agent
namespace Stream
open Interleaving Transactions Polling

/-! ## The table -/

/-- The ids are distinct and below the next, and no row is changed. -/
structure Store.Kept (s : Store) : Prop where
  distinct : (s.events.map (·.row.id)).Nodup
  below : ∀ e ∈ s.events, e.row.id < s.nextId
  unwritten : ∀ e ∈ s.events, e.writer = none

namespace Store
variable {s s' : Store} {t : Nat}

theorem mem_visible {x : Item} :
    x ∈ s.visible ↔ ∃ e ∈ s.events, e.owner = none ∧ (e.row.id, e.row.payload) = x := by
  constructor
  · intro hx
    obtain ⟨row, hrow, rfl⟩ := List.mem_map.mp hx
    obtain ⟨e, he, howner, rfl⟩ := mem_committed.mp hrow
    exact ⟨e, he, howner, rfl⟩
  · rintro ⟨e, he, howner, rfl⟩
    exact List.mem_map.mpr ⟨e.row, mem_committed.mpr ⟨e, he, howner, rfl⟩, rfl⟩

theorem Kept.visible (h : s.Kept) : (s.visible.map Prod.fst).Nodup := by
  have hmap : s.visible.map Prod.fst =
      (s.events.filter fun e => e.owner.isNone).map (·.row.id) := by
    unfold Store.visible committed
    rw [List.map_map, List.map_map]
    rfl
  rw [hmap]
  exact h.distinct.sublist (List.filter_sublist.map _)

/-- Fewer rows, some of them in another state. -/
theorem Kept.fewer {f : Slot EventRow → Option (Slot EventRow)} (h : s.Kept)
    (hf : ∀ e e', e.writer = none → f e = some e' → e'.row = e.row ∧ e'.writer = none)
    (hevents : s'.events = s.events.filterMap f) (hnext : s'.nextId = s.nextId) : s'.Kept := by
  have hmem : ∀ e' ∈ s'.events, ∃ e ∈ s.events, e'.row = e.row ∧ e'.writer = none := by
    intro e' he'
    rw [hevents] at he'
    obtain ⟨e, he, hfe⟩ := List.mem_filterMap.mp he'
    exact ⟨e, he, hf e e' (h.unwritten e he) hfe⟩
  refine ⟨?_, fun e' he' => ?_, fun e' he' => ?_⟩
  · have hsub : ∀ rows : List (Slot EventRow), (∀ e ∈ rows, e.writer = none) →
        ((rows.filterMap f).map (·.row.id)).Sublist (rows.map (·.row.id)) := by
      intro rows hrows
      induction rows with
      | nil => exact .slnil
      | cons e rows ih =>
        have hrest := ih fun e' he' => hrows e' (List.mem_cons_of_mem _ he')
        rw [List.filterMap_cons]
        cases hfe : f e with
        | none => exact hrest.cons _
        | some e' =>
          obtain ⟨hrow, -⟩ := hf e e' (hrows e List.mem_cons_self) hfe
          rw [List.map_cons, List.map_cons, hrow]
          exact hrest.cons_cons _
    rw [hevents]
    exact h.distinct.sublist (hsub s.events h.unwritten)
  · obtain ⟨e, he, hrow, -⟩ := hmem e' he'
    rw [hrow, hnext]
    exact h.below e he
  · obtain ⟨e, he, -, hwriter⟩ := hmem e' he'
    exact hwriter

theorem rollback_row {e e' : Slot EventRow} (h : e.writer = none)
    (hrollback : e.rollback t = some e') : e' = e ∧ e.owner ≠ some t := by
  unfold Slot.rollback at hrollback
  split at hrollback
  · cases hrollback
  · rename_i hown
    rw [h] at hrollback
    obtain rfl := Option.some.inj hrollback
    exact ⟨rfl, hown⟩

theorem commit_row {e e' : Slot EventRow} (h : e.writer = none) (hcommit : e.commit t = some e') :
    e' = if e.owner = some t then { e with owner := none } else e := by
  obtain ⟨row, owner, writer⟩ := e
  obtain rfl : writer = none := h
  exact (Option.some.inj hcommit).symm

theorem Kept.rolledBack (h : s.Kept) (u : Nat) : (s.rolledBack u).Kept := by
  refine h.fewer (fun e e' hwriter hrollback => ?_) rfl rfl
  obtain ⟨rfl, -⟩ := rollback_row hwriter hrollback
  exact ⟨rfl, hwriter⟩

theorem Kept.committedBy (h : s.Kept) (u : Nat) : (s.committedBy u).Kept := by
  refine h.fewer (fun e e' hwriter hcommit => ?_) rfl rfl
  rw [commit_row hwriter hcommit]
  split
  · exact ⟨rfl, hwriter⟩
  · exact ⟨rfl, hwriter⟩

theorem Kept.inserted (h : s.Kept) (runId : Option Nat) (payload : Json) (taken : Nat) :
    (s.inserted t runId payload taken).Kept := by
  have hnew : ∀ e ∈ s.events, e.row.id < s.nextId + taken := fun e he =>
    Nat.lt_of_lt_of_le (h.below e he) (Nat.le_add_right _ _)
  refine ⟨?_, fun e he => ?_, fun e he => ?_⟩
  · show ((s.events ++ [_]).map _).Nodup
    rw [List.map_append]
    refine List.nodup_append.mpr ⟨h.distinct, List.nodup_singleton _, fun x hx y hy => ?_⟩
    obtain ⟨e, he, rfl⟩ := List.mem_map.mp hx
    have hid : y = s.nextId + taken := List.mem_singleton.mp hy
    have hlt := hnew e he
    omega
  · show e.row.id < s.nextId + taken + 1
    rcases mem_insert.mp he with he | rfl
    · have hlt := hnew e he
      omega
    · exact Nat.lt_succ_self _
  · rcases mem_insert.mp he with he | rfl
    · exact h.unwritten e he
    · rfl

/-- What an operation does to the table. -/
inductive Moved (t : Nat) (s : Store) : Op → Store → Prop where
  | same {o : Op} (gone : List Nat) : Moved t s o { s with gone }
  | inserted {o : Op} (runId : Option Nat) (payload : Json) (taken : Nat) :
    Moved t s o (s.inserted t runId payload taken)
  | committed : Moved t s .commit (s.committedBy t)
  | rolledBack {o : Op} (u : Nat) (gone : List Nat) : Moved t s o { s.rolledBack u with gone }

theorem run_moved {o : Op} {ch : Choice} {x : Except Unit o.Val}
    (h : s.run t o ch = (x, s')) : Moved t s o s' := by
  cases o with
  | insert runId event =>
    simp only [run] at h
    split at h
    · cases h
      exact .rolledBack t _
    · cases h
      exact .inserted runId _ _
  | commit =>
    simp only [run] at h
    split at h
    · cases h
      exact .rolledBack t _
    · cases h
      exact .committed
  | rollback =>
    cases h
    exact .rolledBack t _
  | abort thread =>
    cases h
    exact .rolledBack thread _
  | latest =>
    simp only [run] at h
    split at h
    · cases h
      exact .same _
    · cases h
      exact .same _
  | eventsAfter afterId =>
    simp only [run] at h
    split at h
    · cases h
      exact .same _
    · cases h
      exact .same _
  | deliver item =>
    cases h
    exact .same _

theorem Moved.kept {o : Op} (h : Moved t s o s') (hs : s.Kept) : s'.Kept := by
  cases h with
  | same gone => exact ⟨hs.distinct, hs.below, hs.unwritten⟩
  | inserted runId payload taken => exact hs.inserted runId payload taken
  | committed => exact hs.committedBy t
  | rolledBack u gone =>
    have hkept := hs.rolledBack u
    exact ⟨hkept.distinct, hkept.below, hkept.unwritten⟩

/-- What can be read stays. -/
theorem Moved.grows {o : Op} (h : Moved t s o s') (hs : s.Kept) : s.visible ⊆ s'.visible := by
  intro x hx
  obtain ⟨e, he, howner, hitem⟩ := mem_visible.mp hx
  have hwriter := hs.unwritten e he
  cases h with
  | same gone => exact hx
  | inserted runId payload taken =>
    exact mem_visible.mpr ⟨e, mem_insert.mpr (.inl he), howner, hitem⟩
  | committed =>
    refine mem_visible.mpr ⟨e, List.mem_filterMap.mpr ⟨e, he, ?_⟩, howner, hitem⟩
    unfold Slot.commit
    rw [hwriter, howner]
    rfl
  | rolledBack u gone =>
    refine mem_visible.mpr ⟨e, List.mem_filterMap.mpr ⟨e, he, ?_⟩, howner, hitem⟩
    unfold Slot.rollback
    rw [hwriter, howner]
    rfl

/-- What appears was inserted by the transaction that commits. -/
theorem Moved.appears {o : Op} (h : Moved t s o s') (hs : s.Kept) {x : Item} (hx : x ∈ s'.visible)
    (hnew : x ∉ s.visible) :
    o = .commit ∧ ∃ e ∈ s.events, e.owner = some t ∧ (e.row.id, e.row.payload) = x := by
  obtain ⟨e, he, howner, hitem⟩ := mem_visible.mp hx
  cases h with
  | same gone => exact absurd hx hnew
  | inserted runId payload taken =>
    rcases mem_insert.mp he with he | rfl
    · exact absurd (mem_visible.mpr ⟨e, he, howner, hitem⟩) hnew
    · cases howner
  | committed =>
    obtain ⟨e₀, he₀, hcommit⟩ := List.mem_filterMap.mp he
    have hrow := commit_row (hs.unwritten e₀ he₀) hcommit
    by_cases hown : e₀.owner = some t
    · rw [if_pos hown] at hrow
      subst hrow
      exact ⟨rfl, e₀, he₀, hown, hitem⟩
    · rw [if_neg hown] at hrow
      subst hrow
      exact absurd (mem_visible.mpr ⟨e, he₀, howner, hitem⟩) hnew
  | rolledBack u gone =>
    obtain ⟨e₀, he₀, hrollback⟩ := List.mem_filterMap.mp he
    obtain ⟨rfl, -⟩ := rollback_row (hs.unwritten e₀ he₀) hrollback
    exact absurd (mem_visible.mpr ⟨e, he₀, howner, hitem⟩) hnew

end Store

/-! ## Runs -/

abbrev Event := service.Event

/-- What thread `t` has read and handed on. -/
def subscriber (t : Nat) (tr : List Event) : Follower Item := reader (System.own t tr)

def delivered (t : Nat) (tr : List Event) : List Item := (subscriber t tr).delivered

/-- **The table and every subscriber** are in order: what one has been told of can be read. -/
structure Kept (s : Store) (tr : List Event) : Prop where
  table : s.Kept
  inOrder : ∀ t, (subscriber t tr).InOrder Prod.fst
  known : ∀ t, ∀ x ∈ (subscriber t tr).told, x ∈ s.visible

/-- What is known of an event of a run. -/
def Lawful (pre : List Event) (ev : Event) : Prop :=
  Allowed (System.own ev.thread pre) ev.op ∧
    ev.before.run ev.thread ev.op ev.choice = (ev.answer, ev.after)

theorem subscriber_snoc (tr : List Event) (ev : Event) (t : Nat) :
    subscriber t (tr ++ [ev]) =
      if ev.thread = t then heard ev.op ev.answer (subscriber t tr) else subscriber t tr := by
  unfold subscriber
  by_cases hthread : ev.thread = t
  · subst hthread
    rw [if_pos rfl, System.own_snoc, reader_snoc]
  · rw [if_neg hthread, System.own_other tr hthread]

/-- What an operation may do to its thread's subscription. -/
inductive Heard (pre : List Event) (ev : Event) : Follower Item → Prop where
  | same (h : isPage ev.op ev.answer = false) : Heard pre ev (subscriber ev.thread pre)
  | began (last : Nat) (hnew : subscriber ev.thread pre = {})
    (h : isPage ev.op ev.answer = false) (hop : ev.op = .latest) : Heard pre ev { cursor := last }
  | page (h : isPage ev.op ev.answer = true) (hpending : (subscriber ev.thread pre).pending = [])
    (hvisible : ev.after.visible = ev.before.visible) :
    Heard pre ev ((subscriber ev.thread pre).read Prod.fst
      (page Store.eventsLimit Prod.fst (subscriber ev.thread pre).cursor ev.before.visible))
  | handed (h : isPage ev.op ev.answer = false) : Heard pre ev (subscriber ev.thread pre).hand

theorem Lawful.heard {pre : List Event} {ev : Event} (h : Lawful pre ev) :
    Heard pre ev (heard ev.op ev.answer (subscriber ev.thread pre)) := by
  obtain ⟨thread, o, ch, before, answer, after⟩ := ev
  obtain ⟨hallowed, hrun⟩ := h
  cases o with
  | latest =>
    have hnew : subscriber thread pre = {} := by
      have hpast : System.own thread pre = [] := hallowed
      unfold subscriber
      rw [hpast]
      rfl
    cases answer with
    | ok last =>
      have hbegan : Heard pre ⟨thread, .latest, ch, before, .ok last, after⟩ { cursor := last } :=
        .began last hnew rfl rfl
      show Heard pre _ { subscriber thread pre with cursor := last }
      rw [hnew]
      exact hbegan
    | error e => exact .same rfl
  | eventsAfter afterId =>
    obtain ⟨hcursor, hpending⟩ : afterId = (subscriber thread pre).cursor ∧
      (subscriber thread pre).pending = [] := hallowed
    cases answer with
    | ok rows =>
      simp only [Store.run] at hrun
      split at hrun
      · cases hrun
      · cases hrun
        rw [hcursor]
        exact .page rfl hpending rfl
    | error e => exact .same rfl
  | deliver item =>
    cases answer with
    | ok u => exact .handed rfl
    | error e => exact .handed rfl
  | insert runId event => exact .same rfl
  | commit => exact .same rfl
  | rollback => exact .same rfl
  | abort u => exact .same rfl

theorem Kept.step {pre : List Event} {ev : Event} (h : Kept ev.before pre) (hev : Lawful pre ev) :
    Kept ev.after (pre ++ [ev]) := by
  have hmoved := Store.run_moved hev.2
  have hgrows := hmoved.grows h.table
  have hkept : ∀ t, (subscriber t (pre ++ [ev])).InOrder Prod.fst ∧
      ∀ x ∈ (subscriber t (pre ++ [ev])).told, x ∈ ev.after.visible := by
    intro t
    rw [subscriber_snoc]
    split
    · rename_i hthread
      subst hthread
      have hold := h.inOrder ev.thread
      have hknown : ∀ x ∈ (subscriber ev.thread pre).told, x ∈ ev.after.visible :=
        fun x hx => hgrows (h.known _ x hx)
      have hheard := hev.heard
      generalize heard ev.op ev.answer (subscriber ev.thread pre) = r at hheard ⊢
      cases hheard with
      | same => exact ⟨hold, hknown⟩
      | began last hnew =>
        exact ⟨⟨List.Pairwise.nil, fun x hx => nomatch hx⟩, fun x hx => nomatch hx⟩
      | page hpage hpending hvisible =>
        refine ⟨hold.read hpending (page_sorted h.table.visible) fun x hx => (mem_page hx).2, ?_⟩
        rw [Follower.told_read hpending]
        intro x hx
        rcases List.mem_append.mp hx with hx | hx
        · exact hknown x hx
        · exact hgrows (mem_page hx).1
      | handed =>
        refine ⟨hold.hand, ?_⟩
        rw [Follower.told_hand]
        exact hknown
    · exact ⟨h.inOrder t, fun x hx => hgrows (h.known t x hx)⟩
  exact ⟨hmoved.kept h.table, fun t => (hkept t).1, fun t => (hkept t).2⟩

/-- **What becomes of an item** that appeared when the subscriber was at `since`, after so many
pages: it is not among what the subscriber is told if it was passed, and otherwise is on its
way. -/
structure Chased (x : Item) (since pages : Nat) (r : Follower Item) (s : Store) : Prop where
  seen : x ∈ s.visible
  cursor : since ≤ r.cursor
  late : x.1 ≤ since → x ∉ r.told
  covers : since < x.1 → r.Covers Prod.fst x
  pace : since < x.1 → r.cursor < x.1 → since + pages ≤ r.cursor
  done : since < x.1 → x.1 < pages → x ∈ r.delivered

section
variable {x : Item} {since pages : Nat} {r : Follower Item} {s s' : Store}

theorem Chased.grow (h : Chased x since pages r s) (hgrows : s.visible ⊆ s'.visible) :
    Chased x since pages r s' :=
  ⟨hgrows h.seen, h.cursor, h.late, h.covers, h.pace, h.done⟩

theorem Chased.hand (h : Chased x since pages r s) : Chased x since pages r.hand s where
  seen := h.seen
  cursor := h.cursor
  late hlate := by
    rw [Follower.told_hand]
    exact h.late hlate
  covers habove := (h.covers habove).hand
  pace := h.pace
  done habove hpages := List.mem_append_left _ (h.done habove hpages)

theorem Chased.page (h : Chased x since pages r s) (hpending : r.pending = [])
    (htable : (s.visible.map Prod.fst).Nodup) :
    Chased x since (pages + 1)
      (r.read Prod.fst (Polling.page Store.eventsLimit Prod.fst r.cursor s.visible)) s := by
  have hcursor := (@Follower.read_cursor _ Prod.fst r _
    (@page_sorted _ Store.eventsLimit _ r.cursor _ htable) fun y hy => (mem_page hy).2).1
  have htold : r.told = r.delivered := by
    unfold Follower.told
    rw [hpending, List.append_nil]
  refine ⟨h.seen, Nat.le_trans h.cursor hcursor, fun hlate => ?_, fun habove => ?_,
    fun habove hbelow => ?_, fun habove hpages => ?_⟩
  · rw [Follower.told_read hpending]
    intro hx
    rcases List.mem_append.mp hx with hx | hx
    · exact h.late hlate hx
    · have hlow := (mem_page hx).2
      have hsince := h.cursor
      omega
  · exact (h.covers habove).page hpending htable h.seen
  · have hstep := @Follower.page_advances _ Prod.fst r _ _ Store.eventsLimit (by decide) htable h.seen
      (by omega)
    have hpace := h.pace habove (by omega)
    omega
  · show x ∈ r.delivered
    -- The page after the one that reached the item is read when it has been handed on.
    by_cases hcursor : r.cursor < x.1
    · have hpace := h.pace habove hcursor
      omega
    · rw [← htold]
      exact h.covers habove (by omega)

end

/-- The item appears: its transaction commits. -/
def Appears (ev : Event) (x : Item) : Prop := x ∈ ev.after.visible ∧ x ∉ ev.before.visible

theorem Chased.start {pre : List Event} {ev : Event} {x : Item} (h : Kept ev.before pre)
    (hev : Lawful pre ev) (hx : Appears ev x) (t : Nat) :
    Chased x (subscriber t pre).cursor 0 (subscriber t (pre ++ [ev])) ev.after := by
  obtain ⟨hop, -⟩ := (Store.run_moved hev.2).appears h.table hx.1 hx.2
  have hsame : subscriber t (pre ++ [ev]) = subscriber t pre := by
    obtain ⟨thread, o, ch, before, answer, after⟩ := ev
    obtain rfl : o = .commit := hop
    rw [subscriber_snoc]
    split
    · rfl
    · rfl
  have hunknown : x ∉ (subscriber t pre).told := fun hmem => hx.2 (h.known t x hmem)
  rw [hsame]
  refine ⟨hx.1, Nat.le_refl _, fun _ => hunknown, fun habove hle => ?_, fun _ _ => Nat.le_refl _,
    fun _ hpages => ?_⟩
  · omega
  · omega

theorem Chased.step {pre : List Event} {ev : Event} {x : Item} {since t n : Nat}
    (hkept : Kept ev.before pre) (hev : Lawful pre ev)
    (hbegun : System.own t pre ≠ []) (h : Chased x since n (subscriber t pre) ev.before) :
    Chased x since (n + if ev.thread = t ∧ isPage ev.op ev.answer then 1 else 0)
      (subscriber t (pre ++ [ev])) ev.after := by
  have hgrows := (Store.run_moved hev.2).grows hkept.table
  rw [subscriber_snoc]
  by_cases hthread : ev.thread = t
  · subst hthread
    rw [if_pos rfl]
    have hheard := hev.heard
    generalize heard ev.op ev.answer (subscriber ev.thread pre) = r at hheard ⊢
    cases hheard with
    | same hpage =>
      rw [if_neg (by rw [hpage]; simp)]
      exact h.grow hgrows
    | began last hnew hpage hop =>
      obtain ⟨hallowed, -⟩ := hev
      rw [hop] at hallowed
      exact absurd hallowed hbegun
    | page hpage hpending hvisible =>
      rw [if_pos ⟨rfl, hpage⟩]
      exact (h.page hpending hkept.table.visible).grow hgrows
    | handed hpage =>
      rw [if_neg (by rw [hpage]; simp)]
      exact h.hand.grow hgrows
  · rw [if_neg hthread, if_neg fun hand => hthread hand.1]
    exact h.grow hgrows

theorem polls_own (t : Nat) (tr : List Event) (ev : Event) :
    polls (System.own t (tr ++ [ev])) =
      polls (System.own t tr) + if ev.thread = t ∧ isPage ev.op ev.answer then 1 else 0 := by
  by_cases hthread : ev.thread = t
  · subst hthread
    rw [System.own_snoc, polls_snoc]
    simp only [true_and]
  · rw [System.own_other tr hthread, if_neg fun hand => hthread hand.1, Nat.add_zero]

/-- Every item that has appeared since a subscription began is on its way. -/
def AllChased (s : Store) (tr : List Event) : Prop :=
  ∀ t pre ev post x, tr = pre ++ ev :: post → subscribed (System.own t pre) = true →
    Appears ev x →
    Chased x (subscriber t pre).cursor (polls (System.own t post)) (subscriber t tr) s

theorem AllChased.step {pre : List Event} {ev : Event} (h : AllChased ev.before pre)
    (hkept : Kept ev.before pre) (hev : Lawful pre ev) : AllChased ev.after (pre ++ [ev]) := by
  intro t pre' ev' post x hsplit hsubscribed hx
  rcases List.eq_nil_or_concat post with rfl | ⟨post', last, rfl⟩
  · obtain ⟨rfl, hlast⟩ := List.append_inj' hsplit rfl
    cases hlast
    exact Chased.start hkept hev hx t
  · have hsplit' : pre ++ [ev] = (pre' ++ ev' :: post') ++ [last] := by simpa using hsplit
    obtain ⟨hpre, hlast⟩ := List.append_inj' hsplit' rfl
    cases hlast
    have hbegun : System.own t pre ≠ [] := by
      intro hnone
      have hpre' : System.own t pre' = [] := by
        rw [hpre] at hnone
        unfold System.own at hnone ⊢
        rw [List.filter_append, List.map_append] at hnone
        exact (List.append_eq_nil_iff.mp hnone).1
      rw [hpre'] at hsubscribed
      cases hsubscribed
    rw [List.concat_eq_append, polls_own]
    exact Chased.step hkept hev hbegun (h t pre' ev' post' x hpre hsubscribed hx)

/-- The events of a run from the empty table. -/
theorem run_kept {cond : service.recorded.Cond} {d : Config Statements Unit (Store × List Event)}
    (hr : service.recorded.Reaches cond (Config.idle ({}, [])) d) :
    Kept d.shared.1 d.shared.2 ∧ AllChased d.shared.1 d.shared.2 ∧
      System.Each (fun pre ev => Kept ev.before pre ∧ Lawful pre ev ∧
        cond ev.thread ev.op ev.choice (ev.before, pre)) d.shared.2 := by
  have hallowed : System.Each (fun pre (ev : Event) => Allowed (System.own ev.thread pre) ev.op)
      d.shared.2 := System.recorded_follows (fun _ hp => entry_follows hp) hr
  have heach := System.recorded_each hr
  have hlawful : System.Each Lawful d.shared.2 := fun pre ev post hsplit =>
    ⟨hallowed pre ev post hsplit, Option.some.inj (heach pre ev post hsplit).2⟩
  have hempty : Kept {} [] := by
    refine ⟨⟨List.nodup_nil, fun e he => (nomatch he), fun e he => (nomatch he)⟩,
      fun t => ⟨List.Pairwise.nil, fun x hx => (nomatch hx)⟩, fun t x hx => (nomatch hx)⟩
  have hnothing : AllChased {} [] := by
    intro t pre ev post x hsplit
    simp at hsplit
  obtain ⟨⟨hkept, hchased⟩, hbefore⟩ := System.recorded_induction
    (I := fun s tr => Kept s tr ∧ AllChased s tr) hr ⟨hempty, hnothing⟩
    fun pre ev post hsplit h => ⟨h.1.step (hlawful pre ev post hsplit),
      h.2.step h.1 (hlawful pre ev post hsplit)⟩
  exact ⟨hkept, hchased, fun pre ev post hsplit => ⟨(hbefore pre ev post hsplit).1,
    hlawful pre ev post hsplit, (heach pre ev post hsplit).1⟩⟩

/-! ## The result -/

/-- **The stream is complete**: each subscriber is sent items in the order of their ids, and an
item that appears after the subscription began once, when it has polled more often than the id
says. -/
def Complete (tr : List Event) : Prop :=
  ∀ t, (delivered t tr).Pairwise (fun a b => a.1 < b.1) ∧
    ∀ pre ev post x, tr = pre ++ ev :: post → subscribed (System.own t pre) = true →
      Appears ev x → x.1 < polls (System.own t post) → (delivered t tr).count x = 1

/-- **A commit is in time**: each event of the transaction has an id above the cursors of the
subscribers. -/
def Op.InTime (u : Nat) (o : Op) (s : Store) (tr : List Event) : Prop :=
  o = .commit → ∀ e ∈ s.events, e.owner = some u → ∀ heard ∈ tr,
    subscribed (System.own heard.thread tr) = true →
      (subscriber heard.thread tr).cursor < e.row.id

instance (u : Nat) (o : Op) (s : Store) (tr : List Event) : Decidable (o.InTime u s tr) := by
  unfold Op.InTime
  infer_instance

theorem Kept.delivered {s : Store} {tr : List Event} (h : Kept s tr) (t : Nat) :
    (delivered t tr).Pairwise fun a b => a.1 < b.1 :=
  (List.pairwise_append.mp (h.inOrder t).sorted).1

theorem subscribed_event {t : Nat} {tr : List Event}
    (h : subscribed (System.own t tr) = true) : ∃ ev ∈ tr, ev.thread = t := by
  obtain ⟨x, hx, -⟩ := List.any_eq_true.mp h
  obtain ⟨ev, hev, -⟩ := List.mem_map.mp hx
  obtain ⟨hmem, hthread⟩ := List.mem_filter.mp hev
  exact ⟨ev, hmem, eq_of_beq hthread⟩

/-- Two transactions with an event each, and a subscriber. -/
def sampleMoves (order : List (Nat × Choice)) : List service.recorded.Move :=
  .start (record [(some 1, [("type", .str "step_done")])]) ::
    .start (record [(some 2, [("type", .str "sop_matched")])]) :: .start (stream 3) ::
      order.map fun x => .op x.1 x.2

theorem starts_sampleMoves (order : List (Nat × Choice)) :
    service.recorded.Starts (sampleMoves order) := by
  have hrecord : ∀ events, service.recorded.Entry (record events) := fun events => .inl ⟨events, rfl⟩
  have hstream : service.recorded.Entry (stream 3) := .inr (.inl ⟨3, rfl⟩)
  exact .start (hrecord _) (.start (hrecord _) (.start hstream .each))

/-- **Whatever commits in time is sent to every subscriber, once and in order; and what does not
is never sent.** -/
theorem stream_complete (d : Config Statements Unit (Store × List Event)) :
    (service.recorded.Reaches (fun u o _ st => o.InTime u st.1 st.2) (Config.idle ({}, [])) d →
      Complete d.shared.2) ∧
    (service.recorded.Reaches service.recorded.anyStep (Config.idle ({}, [])) d →
      ∀ t, (delivered t d.shared.2).Pairwise (fun a b => a.1 < b.1) ∧
        ∀ pre ev post x, d.shared.2 = pre ++ ev :: post →
          subscribed (System.own t pre) = true → Appears ev x →
            x.1 ≤ (subscriber t pre).cursor → x ∉ delivered t d.shared.2) := by
  refine ⟨fun hr t => ?_, fun hr t => ?_⟩
  · obtain ⟨hkept, hchased, heach⟩ := run_kept hr
    refine ⟨hkept.delivered t, fun pre ev post x hsplit hsubscribed hx hpolls => ?_⟩
    obtain ⟨hbefore, hlawful, hintime⟩ := heach pre ev post hsplit
    obtain ⟨hop, e, he, howner, hitem⟩ :=
      (Store.run_moved hlawful.2).appears hbefore.table hx.1 hx.2
    obtain ⟨own, hown, rfl⟩ := subscribed_event hsubscribed
    have habove : (subscriber own.thread pre).cursor < e.row.id :=
      hintime hop e he howner own hown hsubscribed
    have hid : e.row.id = x.1 := congrArg Prod.fst hitem
    have hdone := (hchased own.thread pre ev post x hsplit hsubscribed hx).done (by omega) hpolls
    refine List.count_eq_one_of_mem ?_ hdone
    exact (hkept.delivered own.thread).imp fun hlt heq => by
      rw [heq] at hlt
      exact Nat.lt_irrefl _ hlt
  · obtain ⟨hkept, hchased, -⟩ := run_kept hr
    refine ⟨hkept.delivered t, fun pre ev post x hsplit hsubscribed hx hlate hmem => ?_⟩
    exact (hchased t pre ev post x hsplit hsubscribed hx).late hlate (List.mem_append_left _ hmem)

/-- The subscriber is sent both events, whose transactions commit in the order of their ids. -/
theorem stream_complete_sample : ∃ d : Config Statements Unit (Store × List Event),
    (delivered 2 d.shared.2).map Prod.fst = [1, 2] ∧ Complete d.shared.2 := by
  have hplay : (service.recorded.playIf (fun u (o : Op) _ st => decide (o.InTime u st.1 st.2))
      (Config.idle ({}, [])) (sampleMoves
        [(2, {}), (0, {}), (1, {}), (0, {}), (1, {}), (2, {}), (2, {}), (2, {}), (2, {}),
          (2, {})])).map (fun d => (delivered 2 d.shared.2).map Prod.fst) = some [1, 2] := by
    decide +kernel
  obtain ⟨d, hd, hids⟩ := Option.map_eq_some_iff.mp hplay
  exact ⟨d, hids, (stream_complete d).1 (System.playIf_reaches _
    (fun _ (_ : Op) _ _ h => of_decide_eq_true h) (starts_sampleMoves _) hd)⟩

/-- The items that a subscriber has not been sent as it should, after the events `pre`. -/
def lost (t : Nat) (tr : List Event) : List Event → List Event → List Item
  | _, [] => []
  | pre, ev :: post =>
    (if subscribed (System.own t pre) then
      ev.after.visible.filter fun x => x ∉ ev.before.visible ∧
        x.1 < polls (System.own t post) ∧ (delivered t tr).count x ≠ 1
    else []) ++ lost t tr (pre ++ [ev]) post

theorem lost_eq_nil {tr : List Event} (h : Complete tr) (t : Nat) :
    ∀ post pre, tr = pre ++ post → lost t tr pre post = [] := by
  intro post
  induction post with
  | nil => exact fun _ _ => rfl
  | cons ev post ih =>
    intro pre hsplit
    rw [lost, ih (pre ++ [ev]) (by rw [hsplit, List.append_assoc, List.singleton_append]),
      List.append_nil]
    split
    · rename_i hsubscribed
      refine List.filter_eq_nil_iff.mpr fun x hx hlost => ?_
      obtain ⟨hnew, hpolls, hcount⟩ := of_decide_eq_true hlost
      exact hcount ((h t).2 pre ev post x hsplit hsubscribed ⟨hx, hnew⟩ hpolls)
    · rfl

/-- **An event can be lost.**  The first transaction takes the id 1 and the second the id 2; the
second commits and its event is sent, and then the first commits. -/
theorem stream_incomplete : ¬ ∀ d : Config Statements Unit (Store × List Event),
    service.recorded.Reaches service.recorded.anyStep (Config.idle ({}, [])) d →
      Complete d.shared.2 := by
  intro hall
  have hplay : (service.recorded.play (Config.idle ({}, [])) (sampleMoves
      [(2, {}), (0, {}), (1, {}), (1, {}), (2, {}), (2, {}), (0, {}), (2, {}), (2, {})])).map
      (fun d => (lost 2 d.shared.2 [] d.shared.2).map (·.1)) = some [1] := by
    decide +kernel
  obtain ⟨d, hd, hends⟩ := Option.map_eq_some_iff.mp hplay
  have hcomplete := hall d (System.play_reaches _ (starts_sampleMoves _) hd)
  rw [lost_eq_nil hcomplete 2 d.shared.2 [] rfl] at hends
  cases hends

end Stream
end L1Agent
