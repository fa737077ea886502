import L1Agent.Service.Events
import L1Agent.Sop.Lifecycle

/-! # What an SOP version went through

The statements are about recorded runs of a deployment.  `Submitted` says of a version that
its content is what one submission sent for review, and, once it is approved, that the approval
was of that submission.  `SopsReviewed` is what holds of the whole store in every state.

An approver is a person or a token: no system component approves a version (`Op.byUsers`).

`sops_reviewed` has it of every run in which users do what they like.  One step keeps the invariant
(`storeKept_step`), and it is a matter of one version: one that is changed, one that is added, or
one whose content the event leaves alone (`SopVersion.Kept.carry`).
-/
namespace L1Agent
open Interleaving

/-! ## Events of the store -/

section
variable {site : Site}

namespace Site.Event

/-- A draft is created. -/
def Creates (ev : site.Event) (id : Nat) (who : String) : Prop :=
  ∃ content, ev.Commits (.createDraft who content) id

/-- The content of a version is written. -/
def Writes (ev : site.Event) (id : Nat) (who : String) : Prop :=
  ev.Creates id who ∨ ∃ content, ev.Commits (.updateDraft who id content) ()

/-- The version is sent for review with its content, which is valid. -/
def Submits (ev : site.Event) (v : SopVersion) : Prop :=
  (∃ actor, ev.Commits (.submitDraft actor v.id) (site.contentHash v.content)) ∧
    (∃ old ∈ ev.before.db.sopVersions.rows, old.id = v.id ∧ old.content = v.content) ∧
    problemsOf site.eng.catalog v.content = []

/-- The version still has its content afterwards. -/
def Leaves (ev : site.Event) (v : SopVersion) : Prop :=
  ∃ x ∈ ev.after.db.sopVersions.rows, x.id = v.id ∧ x.content = v.content

/-- The version is approved by its approver. -/
def Approves (ev : site.Event) (v : SopVersion) : Prop :=
  ∃ actor, v.approverId = some actor ∧ ev.Commits (.approveVersion actor v.id v.contentHash) ()

/-- A version of the SOP is published under a number. -/
def Publishes (ev : site.Event) (id : Nat) (sopKey : String) (n : Nat) : Prop :=
  (∃ actor, ev.Commits (.publishVersion actor id) n) ∧
    ∃ v ∈ ev.before.db.sopVersions.rows, v.id = id ∧ v.sopKey = sopKey

end Site.Event

/-- The person wrote content of the version that has this id now. -/
def Wrote (tr : List site.Event) (id : Nat) (who : String) : Prop :=
  ∃ pre ev post, tr = pre ++ ev :: post ∧ ev.Writes id who ∧ ∀ e ∈ post, ∀ w, ¬ e.Creates id w

/-- The content is what was submitted, and what was approved. -/
def Submitted (tr : List site.Event) (v : SopVersion) : Prop :=
  ∃ pre ev post, tr = pre ++ ev :: post ∧ ev.Submits v ∧ (∀ e ∈ post, e.Leaves v) ∧
    (v.status.isFrozen = true → ∃ e ∈ post, e.Approves v)

/-- **The lifecycle of the versions.** -/
structure SopsReviewed (site : Site) (rows : List SopVersion) (tr : List site.Event) : Prop where
  twoPeople : ∀ v ∈ rows, v.status.isFrozen = true →
    ∃ approver, v.approverId = some approver ∧ approver ≠ v.authorId
  digest : ∀ v ∈ rows, v.status.isFrozen = true → v.contentHash = site.contentHash v.content
  submitted : ∀ v ∈ rows, v.status.isFrozen = true → Submitted tr v
  notWritten : ∀ v ∈ rows, v.status.isFrozen = true → ∀ who, Wrote tr v.id who →
    v.approverId ≠ some who
  onePublished : rows.Pairwise fun a b => ¬ (a.sopKey = b.sopKey ∧ a.status = .published ∧
    b.status = .published)
  /-- The numbers of an SOP are distinct, were given at publication, -/
  oneNumber : rows.Pairwise fun a b => ¬ (a.sopKey = b.sopKey ∧ a.version.isSome = true ∧
    a.version = b.version)
  numbered : ∀ v ∈ rows, ∀ n, v.version = some n → ∃ e ∈ tr, e.Publishes v.id v.sopKey n
  /-- and increase. -/
  ordered : ∀ x y, [x, y].Sublist tr → ∀ id id' sopKey n m, x.Publishes id sopKey n →
    y.Publishes id' sopKey m → n < m

/-! ## What an event is -/

theorem Db.Saved.ne {db db' : Db} {rows : List SopVersion} {event : AuditEvent}
    (h : db.Saved rows event db') : db' ≠ db := by
  obtain ⟨t, -, rfl⟩ := h
  intro heq
  have hlen := congrArg (fun db : Db => db.audit.length) heq
  simp at hlen

namespace Site.Event
variable {ev : site.Event} {c : DbCall} {v : c.Val}

/-- The event is none of the store. -/
def Apart (ev : site.Event) : Prop :=
  ∀ (c : DbCall) (v : c.Val), ev.Commits c v → Table.sopVersions ∉ c.writes

theorem Commits.apart (h : ev.Commits c v) (hc : Table.sopVersions ∉ c.writes) : ev.Apart := by
  intro c' v' h'
  rw [h.call_eq h']
  exact hc

/-- Nothing is committed where the rows are as they were. -/
theorem apart_of_same (h : ev.after.db = ev.before.db) : ev.Apart := by
  intro c' v' h' hc
  obtain ⟨_, _, hsaved, -⟩ := DbCall.run_saved h'.2 hc
  exact hsaved.ne h

theorem Apart.creates (h : ev.Apart) (id : Nat) (who : String) : ¬ ev.Creates id who := by
  rintro ⟨content, hev⟩
  exact h _ _ hev (by simp [DbCall.writes])

theorem Apart.writes (h : ev.Apart) (id : Nat) (who : String) : ¬ ev.Writes id who := by
  rintro (hev | ⟨content, hev⟩)
  · exact h.creates id who hev
  · exact h _ _ hev (by simp [DbCall.writes])

theorem Apart.publishes (h : ev.Apart) (id : Nat) (sopKey : String) (n : Nat) :
    ¬ ev.Publishes id sopKey n := by
  rintro ⟨⟨actor, hev⟩, -⟩
  exact h _ _ hev (by simp [DbCall.writes])

/-- Only these two transactions write content. -/
theorem Commits.writes (h : ev.Commits c v) {id : Nat} {who : String} (hw : ev.Writes id who) :
    (∃ content, c = .createDraft who content) ∨ ∃ content, c = .updateDraft who id content := by
  rcases hw with ⟨content, hev⟩ | ⟨content, hev⟩
  · exact .inl ⟨content, (h.call_eq hev).symm⟩
  · exact .inr ⟨content, (h.call_eq hev).symm⟩

theorem Commits.publishes (h : ev.Commits c v) {id n : Nat} {sopKey : String}
    (hp : ev.Publishes id sopKey n) : ∃ actor, c = .publishVersion actor id := by
  obtain ⟨⟨actor, hev⟩, -⟩ := hp
  exact ⟨actor, (h.call_eq hev).symm⟩

end Site.Event

/-! ## The history grows -/

variable {tr : List site.Event} {ev : site.Event} {v v' : SopVersion}

theorem Wrote.of_append {id : Nat} {who : String} (h : Wrote (tr ++ [ev]) id who) :
    ev.Writes id who ∨ (Wrote tr id who ∧ ∀ w, ¬ ev.Creates id w) := by
  obtain ⟨pre, e, post, htr, hw, hpost⟩ := h
  rcases List.eq_nil_or_concat post with rfl | ⟨post', last, rfl⟩
  · obtain ⟨-, hlast⟩ := List.append_inj' htr rfl
    cases hlast
    exact .inl hw
  · rw [List.concat_eq_append, ← List.cons_append, ← List.append_assoc] at htr
    obtain ⟨hinit, hlast⟩ := List.append_inj' htr rfl
    cases hlast
    refine .inr ⟨⟨pre, e, post', hinit, hw, fun x hx => hpost x ?_⟩, hpost ev ?_⟩
    · rw [List.concat_eq_append]
      exact List.mem_append_left _ hx
    · simp

/-- A version that keeps its content. -/
theorem Submitted.next (h : Submitted tr v) (hid : v'.id = v.id) (hcontent : v'.content = v.content)
    (hleaves : ev.Leaves v')
    (hfrozen : v'.status.isFrozen = true → (v.status.isFrozen = true ∧
      v'.approverId = v.approverId ∧ v'.contentHash = v.contentHash) ∨ ev.Approves v') :
    Submitted (tr ++ [ev]) v' := by
  obtain ⟨pre, e, post, rfl, ⟨hsubmit, hold, hvalid⟩, hpost, happroved⟩ := h
  refine ⟨pre, e, post ++ [ev], by simp, ⟨?_, ?_, ?_⟩, fun x hx => ?_, fun hf => ?_⟩
  · rw [hid, hcontent]
    exact hsubmit
  · rw [hid, hcontent]
    exact hold
  · rw [hcontent]
    exact hvalid
  · rcases List.mem_append.mp hx with hx | hx
    · obtain ⟨y, hy, hyid, hycontent⟩ := hpost x hx
      exact ⟨y, hy, hyid.trans hid.symm, hycontent.trans hcontent.symm⟩
    · cases List.mem_singleton.mp hx
      exact hleaves
  · rcases hfrozen hf with ⟨hf', happ, hhash⟩ | hev
    · obtain ⟨x, hx, actor, hactor, hcommit⟩ := happroved hf'
      refine ⟨x, List.mem_append_left _ hx, actor, happ.trans hactor, ?_⟩
      rw [hid, hhash]
      exact hcommit
    · exact ⟨ev, by simp, hev⟩

/-- A version that has just been sent for review. -/
theorem Site.Event.Submits.submitted (h : ev.Submits v) (hv : v.status.isFrozen = false) :
    Submitted (tr ++ [ev]) v := by
  refine ⟨tr, ev, [], rfl, h, by simp, fun hf => ?_⟩
  rw [hv] at hf
  cases hf

/-! ## The invariant -/

/-- The version is, or was, the one the engine runs. -/
def SopStatus.wasPublished : SopStatus → Bool
  | published | superseded | retired => true
  | draft | inReview | approved => false

theorem SopStatus.isFrozen_of_wasPublished {st : SopStatus} (h : st.wasPublished = true) :
    st.isFrozen = true := by
  revert h
  cases st <;> decide

/-- What holds of each version. -/
structure SopVersion.Kept (site : Site) (tr : List site.Event) (v : SopVersion) : Prop where
  writer : ∀ who, Wrote tr v.id who → who = v.authorId ∨ isSystem who = true
  submitted : v.status ≠ .draft → Submitted tr v ∧ v.contentHash = site.contentHash v.content
  approver : v.status.isFrozen = true → ∀ a, v.approverId = some a → isSystem a = false
  numbered : v.version.isSome = true → v.status.wasPublished = true
  published : ∀ n, v.version = some n → ∃ e ∈ tr, e.Publishes v.id v.sopKey n

/-- What holds of the numbers that were given. -/
structure Numbered (rows : List SopVersion) (tr : List site.Event) : Prop where
  there : ∀ e ∈ tr, ∀ id sopKey n, e.Publishes id sopKey n →
    ∃ v ∈ rows, v.sopKey = sopKey ∧ v.version = some n
  ordered : ∀ x y, [x, y].Sublist tr → ∀ id id' sopKey n m, x.Publishes id sopKey n →
    y.Publishes id' sopKey m → n < m

/-- **A version whose content the event leaves alone.** -/
theorem SopVersion.Kept.carry (h : v.Kept site tr) (hid : v'.id = v.id)
    (hkey : v'.sopKey = v.sopKey) (hcontent : v'.content = v.content)
    (hhash : v'.contentHash = v.contentHash) (hauthor : v'.authorId = v.authorId)
    (happrover : v'.approverId = v.approverId)
    (hstatus : v'.status = v.status ∨ (v.status.isFrozen = true ∧ v'.status.wasPublished = true))
    (hversion : v'.version = v.version ∨ (v'.status.wasPublished = true ∧
      ∀ n, v'.version = some n → ev.Publishes v'.id v'.sopKey n))
    (hwrites : ∀ w, ¬ ev.Writes v.id w) (hleaves : ev.Leaves v') : v'.Kept site (tr ++ [ev]) := by
  have hfrozen : v'.status.isFrozen = v.status.isFrozen := by
    rcases hstatus with hs | ⟨h1, h2⟩
    · rw [hs]
    · rw [h1, SopStatus.isFrozen_of_wasPublished h2]
  refine ⟨fun who hw => ?_, fun hs => ?_, fun hf a ha => ?_, fun hv => ?_, fun n hn => ?_⟩
  · rw [hid] at hw
    rw [hauthor]
    rcases hw.of_append with hev | ⟨hw, -⟩
    · exact absurd hev (hwrites who)
    · exact h.writer who hw
  · have hne : v.status ≠ .draft := by
      rcases hstatus with heq | ⟨hf, -⟩
      · rw [← heq]
        exact hs
      · intro hd
        rw [hd] at hf
        cases hf
    obtain ⟨hsub, hdigest⟩ := h.submitted hne
    refine ⟨hsub.next hid hcontent hleaves fun hf => .inl ⟨?_, happrover, hhash⟩, ?_⟩
    · rw [← hfrozen]
      exact hf
    · rw [hhash, hcontent]
      exact hdigest
  · rw [hfrozen] at hf
    exact h.approver hf a (happrover.symm.trans ha)
  · rcases hversion with heq | ⟨hpub, -⟩
    · rw [heq] at hv
      rcases hstatus with hs | ⟨-, hpub⟩
      · rw [hs]
        exact h.numbered hv
      · exact hpub
    · exact hpub
  · rcases hversion with heq | ⟨-, hpub⟩
    · obtain ⟨e, he, hpub⟩ := h.published n (heq.symm.trans hn)
      rw [hid, hkey]
      exact ⟨e, List.mem_append_left _ he, hpub⟩
    · exact ⟨ev, by simp, hpub n hn⟩

/-- A version that is as it was. -/
theorem SopVersion.Kept.same (h : v.Kept site tr) (hwrites : ∀ w, ¬ ev.Writes v.id w)
    (hv : v ∈ ev.after.db.sopVersions.rows) : v.Kept site (tr ++ [ev]) :=
  h.carry rfl rfl rfl rfl rfl rfl (.inl rfl) (.inl rfl) hwrites ⟨v, hv, rfl, rfl⟩

/-- An event that publishes nothing leaves the numbers. -/
theorem Numbered.next {rows rows' : List SopVersion} (h : Numbered rows tr)
    (hev : ∀ id sopKey n, ¬ ev.Publishes id sopKey n)
    (hrows : ∀ v ∈ rows, v.version.isSome = true →
      ∃ v' ∈ rows', v'.sopKey = v.sopKey ∧ v'.version = v.version) :
    Numbered rows' (tr ++ [ev]) := by
  refine ⟨fun e he id sopKey n hp => ?_, fun x y hxy id id' sopKey n m hx hy => ?_⟩
  · rcases List.mem_append.mp he with he | he
    · obtain ⟨v, hv, hkey, hn⟩ := h.there e he id sopKey n hp
      obtain ⟨v', hv', hkey', hn'⟩ := hrows v hv (by rw [hn]; rfl)
      exact ⟨v', hv', hkey'.trans hkey, hn'.trans hn⟩
    · cases List.mem_singleton.mp he
      exact absurd hp (hev id sopKey n)
  · rcases List.sublist_append_iff.mp hxy with ⟨l, l', heq, hl, hl'⟩
    rcases List.sublist_singleton.mp hl' with rfl | rfl
    · rw [List.append_nil] at heq
      rw [← heq] at hl
      exact h.ordered x y hl id id' sopKey n m hx hy
    · obtain rfl : y = ev := by
        have hlast := congrArg List.getLast? heq
        simpa using hlast
      exact absurd hy (hev id' sopKey m)

/-! ## The transactions of the store keep it -/

/-- **The invariant of the store.** -/
structure StoreKept (site : Site) (db : Db) (tr : List site.Event) : Prop where
  version : ∀ v ∈ db.sopVersions.rows, v.Kept site tr
  numbers : Numbered db.sopVersions.rows tr

/-- An event that is none of the store. -/
theorem StoreKept.apart (h : StoreKept site ev.before.db tr) (hev : ev.Apart)
    (hsame : ev.after.db.sopVersions = ev.before.db.sopVersions) :
    StoreKept site ev.after.db (tr ++ [ev]) := by
  refine ⟨fun v hv => ?_, ?_⟩
  · refine (h.version v ?_).same (hev.writes v.id) hv
    rw [← hsame]
    exact hv
  · rw [hsame]
    exact h.numbers.next hev.publishes fun v hv _ => ⟨v, hv, rfl, rfl⟩

/-- **One version is changed**, and its number is not. -/
theorem StoreKept.put {after : SopVersion} (h : StoreKept site ev.before.db tr)
    (hv : v ∈ ev.before.db.sopVersions.rows)
    (hrows : ev.after.db.sopVersions.rows = putVersion after ev.before.db.sopVersions.rows)
    (hid : after.id = v.id) (hkey : after.sopKey = v.sopKey) (hnumber : after.version = v.version)
    (hwrites : ∀ id, id ≠ v.id → ∀ w, ¬ ev.Writes id w)
    (hpublishes : ∀ id sopKey n, ¬ ev.Publishes id sopKey n)
    (hafter : after ∈ ev.after.db.sopVersions.rows → after.Kept site (tr ++ [ev])) :
    StoreKept site ev.after.db (tr ++ [ev]) := by
  have hmem : after ∈ ev.after.db.sopVersions.rows := by
    rw [hrows]
    exact putVersion_self hv hid.symm
  refine ⟨fun x hx => ?_, h.numbers.next hpublishes fun x hx _ => ?_⟩
  · have hx' := hx
    rw [hrows] at hx'
    rcases mem_putVersion hx' with rfl | ⟨hold, hne⟩
    · exact hafter hmem
    · exact (h.version x hold).same (hwrites x.id (by rw [← hid]; exact hne)) hx
  · by_cases hne : x.id = after.id
    · obtain rfl := ev.before.db.sopVersions.unique hx hv (hne.trans hid)
      exact ⟨after, hmem, hkey, hnumber⟩
    · refine ⟨x, ?_, rfl, rfl⟩
      rw [hrows]
      exact putVersion_mem hx hne

variable {actor : String} {id : Nat}

theorem StoreKept.created (h : StoreKept site ev.before.db tr) {content : SopContent} {n : Nat}
    (hc : ev.Commits (.createDraft actor content) n) : StoreKept site ev.after.db (tr ++ [ev]) := by
  obtain ⟨hn, hsaved⟩ := createDraft_ok hc.2
  have hrows := hsaved.rows_eq
  -- The new version is written by its author, and so is no other.
  have hcreates : ∀ id' w, ev.Creates id' w → id' = n ∧ w = actor := by
    rintro id' w ⟨content', hev⟩
    cases hc.call_eq hev
    exact ⟨(createDraft_ok hev.2).1.trans hn.symm, rfl⟩
  have hwrites : ∀ id' w, ev.Writes id' w → id' = n ∧ w = actor := by
    rintro id' w (hev | ⟨content', hev⟩)
    · exact hcreates id' w hev
    · cases hc.call_eq hev
  refine ⟨fun v hv => ?_, h.numbers.next (fun id' sopKey m hp => ?_) fun v hv _ => ?_⟩
  · have hv' := hv
    rw [hrows] at hv'
    rcases List.mem_append.mp hv' with hold | hnew
    · refine (h.version v hold).same (fun w hw => ?_) hv
      -- Ids are distinct, so an older version has another.
      have hnd := ev.after.db.sopVersions.ok.numbered
      rw [hrows, List.map_append] at hnd
      refine (List.disjoint_of_nodup_append hnd) (List.mem_map_of_mem hold) ?_
      rw [(hwrites v.id w hw).1, hn]
      exact List.mem_singleton_self _
    · cases List.mem_singleton.mp hnew
      refine ⟨fun w hw => ?_, fun hs => absurd rfl hs, fun hf => (nomatch hf),
        fun hn => (nomatch hn), fun m hm => (nomatch hm)⟩
      rcases hw.of_append with hev | ⟨-, hnone⟩
      · exact .inl (hwrites _ w hev).2
      · refine absurd ⟨content, ?_⟩ (hnone actor)
        rw [← hn]
        exact hc
  · obtain ⟨_, heq⟩ := hc.publishes hp
    cases heq
  · refine ⟨v, ?_, rfl, rfl⟩
    rw [hrows]
    exact List.mem_append_left _ hv

theorem StoreKept.updated (h : StoreKept site ev.before.db tr) {content : SopContent} {u : Unit}
    (hc : ev.Commits (.updateDraft actor id content) u) :
    StoreKept site ev.after.db (tr ++ [ev]) := by
  obtain ⟨v, hv, rfl, hdraft, -, hauthor, hsaved⟩ := updateDraft_ok hc.2
  have hold := h.version v hv
  have hwrites : ∀ id' w, ev.Writes id' w → id' = v.id ∧ w = actor := by
    intro id' w hw
    rcases hc.writes hw with ⟨_, heq⟩ | ⟨_, heq⟩
    · cases heq
    · cases heq
      exact ⟨rfl, rfl⟩
  refine h.put hv hsaved.rows_eq rfl rfl rfl (fun id' hne w hw => hne (hwrites id' w hw).1)
    (fun id' sopKey n hp => ?_) fun _ => ⟨fun w hw => ?_, fun hs => absurd hdraft hs, fun hf => ?_,
      fun hn => hold.numbered hn, fun n hn => ?_⟩
  · obtain ⟨_, heq⟩ := hc.publishes hp
    cases heq
  · rcases hw.of_append with hev | ⟨hw, -⟩
    · exact .inl (hwrites _ w hev).2
    · rcases hold.writer w hw with rfl | hsystem
      · rcases hauthor with heq | hsystem
        · exact .inl heq
        · exact .inr hsystem
      · exact .inr hsystem
  · rw [show (SopVersion.status _) = v.status from rfl, hdraft] at hf
    cases hf
  · obtain ⟨e, he, hpub⟩ := hold.published n hn
    exact ⟨e, List.mem_append_left _ he, hpub⟩

theorem StoreKept.discarded (h : StoreKept site ev.before.db tr) {u : Unit}
    (hc : ev.Commits (.discardDraft actor id) u) : StoreKept site ev.after.db (tr ++ [ev]) := by
  obtain ⟨v, hv, rfl, hdraft, hsaved⟩ := discardDraft_ok hc.2
  have hrows := hsaved.rows_eq
  refine ⟨fun x hx => ?_, h.numbers.next (fun id' sopKey n hp => ?_) fun x hx hn => ?_⟩
  · have hx' := hx
    rw [hrows] at hx'
    refine (h.version x (List.mem_filter.mp hx').1).same (fun w hw => ?_) hx
    rcases hc.writes hw with ⟨_, heq⟩ | ⟨_, heq⟩
    all_goals cases heq
  · obtain ⟨_, heq⟩ := hc.publishes hp
    cases heq
  · -- A version that has a number is frozen, and so is not the one that went.
    refine ⟨x, ?_, rfl, rfl⟩
    rw [hrows]
    refine List.mem_filter.mpr ⟨hx, ?_⟩
    simp only [ne_eq, decide_not, Bool.not_eq_eq_eq_not, Bool.not_true, decide_eq_false_iff_not]
    intro hid
    obtain rfl := ev.before.db.sopVersions.unique hx hv hid
    have hf := (h.version x hx).numbered hn
    rw [hdraft] at hf
    cases hf

theorem StoreKept.submitted (h : StoreKept site ev.before.db tr) {digest : String}
    (hc : ev.Commits (.submitDraft actor id) digest) : StoreKept site ev.after.db (tr ++ [ev]) := by
  obtain ⟨v, after, hv, rfl, hdraft, hauthor, hvalid, hdigest, hafter, hsaved⟩ := submitDraft_ok hc.2
  have hold := h.version v hv
  have hnone : ∀ id' w, ¬ ev.Writes id' w := by
    intro id' w hw
    rcases hc.writes hw with ⟨_, heq⟩ | ⟨_, heq⟩
    all_goals cases heq
  subst hafter hdigest
  refine h.put hv hsaved.rows_eq rfl rfl rfl (fun id' _ w => hnone id' w)
    (fun id' sopKey n hp => ?_) fun _ => ⟨fun w hw => ?_, fun _ => ⟨?_, rfl⟩, fun hf => (nomatch hf),
      fun hn => ?_, fun n hn => ?_⟩
  · obtain ⟨_, heq⟩ := hc.publishes hp
    cases heq
  · rcases hw.of_append with hev | ⟨hw, -⟩
    · exact absurd hev (hnone _ w)
    · rcases hold.writer w hw with rfl | hsystem
      · rcases hauthor with heq | hsystem
        · exact .inl heq
        · exact .inr hsystem
      · exact .inr hsystem
  · exact Site.Event.Submits.submitted ⟨⟨actor, hc⟩, ⟨v, hv, rfl, rfl⟩, hvalid⟩ rfl
  · have hf := hold.numbered hn
    rw [hdraft] at hf
    cases hf
  · obtain ⟨e, he, hpub⟩ := hold.published n hn
    exact ⟨e, List.mem_append_left _ he, hpub⟩

theorem StoreKept.approved (h : StoreKept site ev.before.db tr) (hperson : isSystem actor = false)
    {reviewedHash : String} {u : Unit} (hc : ev.Commits (.approveVersion actor id reviewedHash) u) :
    StoreKept site ev.after.db (tr ++ [ev]) := by
  obtain ⟨v, after, hv, rfl, hreview, -, hhash, hafter, hsaved⟩ := approveVersion_ok hc.2
  have hold := h.version v hv
  have hnone : ∀ id' w, ¬ ev.Writes id' w := by
    intro id' w hw
    rcases hc.writes hw with ⟨_, heq⟩ | ⟨_, heq⟩
    all_goals cases heq
  subst hafter hhash
  obtain ⟨hsub, hdigest⟩ := hold.submitted (by rw [hreview]; decide)
  refine h.put hv hsaved.rows_eq rfl rfl rfl (fun id' _ w => hnone id' w)
    (fun id' sopKey n hp => ?_) fun hmem => ⟨fun w hw => ?_, fun _ => ⟨?_, hdigest⟩, fun _ a ha => ?_,
      fun hn => ?_, fun n hn => ?_⟩
  · obtain ⟨_, heq⟩ := hc.publishes hp
    cases heq
  · rcases hw.of_append with hev | ⟨hw, -⟩
    · exact absurd hev (hnone _ w)
    · exact hold.writer w hw
  · exact hsub.next rfl rfl ⟨_, hmem, rfl, rfl⟩ fun _ => .inr ⟨actor, rfl, hc⟩
  · cases ha
    exact hperson
  · have hf := hold.numbered hn
    rw [hreview] at hf
    cases hf
  · obtain ⟨e, he, hpub⟩ := hold.published n hn
    exact ⟨e, List.mem_append_left _ he, hpub⟩

theorem StoreKept.sentBack (h : StoreKept site ev.before.db tr) {note : String} {u : Unit}
    (hc : ev.Commits (.requestChanges actor id note) u) :
    StoreKept site ev.after.db (tr ++ [ev]) := by
  obtain ⟨v, after, hv, rfl, hreview, hafter, hsaved⟩ := requestChanges_ok hc.2
  have hold := h.version v hv
  have hnone : ∀ id' w, ¬ ev.Writes id' w := by
    intro id' w hw
    rcases hc.writes hw with ⟨_, heq⟩ | ⟨_, heq⟩
    all_goals cases heq
  subst hafter
  refine h.put hv hsaved.rows_eq rfl rfl rfl (fun id' _ w => hnone id' w)
    (fun id' sopKey n hp => ?_) fun _ => ⟨fun w hw => ?_, fun hs => absurd rfl hs,
      fun hf => (nomatch hf), fun hn => ?_, fun n hn => ?_⟩
  · obtain ⟨_, heq⟩ := hc.publishes hp
    cases heq
  · rcases hw.of_append with hev | ⟨hw, -⟩
    · exact absurd hev (hnone _ w)
    · exact hold.writer w hw
  · have hf := hold.numbered hn
    rw [hreview] at hf
    cases hf
  · obtain ⟨e, he, hpub⟩ := hold.published n hn
    exact ⟨e, List.mem_append_left _ he, hpub⟩

theorem StoreKept.retired (h : StoreKept site ev.before.db tr) {sopKey : String} {u : Unit}
    (hc : ev.Commits (.retireSop actor sopKey) u) : StoreKept site ev.after.db (tr ++ [ev]) := by
  obtain ⟨v, hv, -, hpublished, hsaved⟩ := retireSop_ok hc.2
  have hnone : ∀ id' w, ¬ ev.Writes id' w := by
    intro id' w hw
    rcases hc.writes hw with ⟨_, heq⟩ | ⟨_, heq⟩
    all_goals cases heq
  have hfrozen : v.status.isFrozen = true := by rw [hpublished]; rfl
  refine h.put hv hsaved.rows_eq rfl rfl rfl (fun id' _ w => hnone id' w)
    (fun id' sopKey n hp => ?_) fun hmem => (h.version v hv).carry rfl rfl rfl rfl rfl rfl
      (.inr ⟨hfrozen, rfl⟩) (.inl rfl) (hnone v.id) ⟨_, hmem, rfl, rfl⟩
  obtain ⟨_, heq⟩ := hc.publishes hp
  cases heq

theorem StoreKept.published (h : StoreKept site ev.before.db tr) {n : Nat}
    (hc : ev.Commits (.publishVersion actor id) n) : StoreKept site ev.after.db (tr ++ [ev]) := by
  obtain ⟨v, after, hv, rfl, happroved, hnumber, hafter, hsaved⟩ := publishVersion_ok hc.2
  have hrows := hsaved.rows_eq
  have hnone : ∀ id' w, ¬ ev.Writes id' w := by
    intro id' w hw
    rcases hc.writes hw with ⟨_, heq⟩ | ⟨_, heq⟩
    all_goals cases heq
  have hpub : ev.Publishes v.id v.sopKey n := ⟨⟨actor, hc⟩, v, hv, rfl, rfl⟩
  have hfrozen : v.status.isFrozen = true := by rw [happroved]; rfl
  -- The version is approved, and so has no number yet.
  have hfree : v.version.isSome = false := by
    rw [Bool.eq_false_iff]
    intro hn
    have hwas := (h.version v hv).numbered hn
    rw [happroved] at hwas
    cases hwas
  subst hafter
  have hself : v ∈ superseded v.sopKey ev.before.db.sopVersions.rows := by
    refine List.mem_map.mpr ⟨v, hv, if_neg ?_⟩
    rintro ⟨-, hs⟩
    rw [happroved] at hs
    cases hs
  have hmem : { v with status := .published, version := some n } ∈
      ev.after.db.sopVersions.rows := by
    rw [hrows]
    exact putVersion_self hself rfl
  refine ⟨fun x hx => ?_, ?_, fun x y hxy id₁ id₂ sopKey k m hpx hpy => ?_⟩
  · have hx' := hx
    rw [hrows] at hx'
    rcases mem_putVersion hx' with rfl | ⟨hold, -⟩
    · refine (h.version v hv).carry rfl rfl rfl rfl rfl rfl (.inr ⟨hfrozen, rfl⟩)
        (.inr ⟨rfl, fun k hk => ?_⟩) (hnone v.id) ⟨_, hmem, rfl, rfl⟩
      cases hk
      exact hpub
    · obtain ⟨old, hfrom, rfl | ⟨hs, rfl⟩⟩ := mem_superseded hold
      · exact (h.version x hfrom).same (hnone x.id) hx
      · refine (h.version old hfrom).carry rfl rfl rfl rfl rfl rfl (.inr ⟨?_, rfl⟩) (.inl rfl)
          (hnone old.id) ⟨_, hx, rfl, rfl⟩
        rw [hs]
        rfl
  · intro e he id₁ sopKey k hp
    rcases List.mem_append.mp he with he | he
    · obtain ⟨x, hx, hkey, hk⟩ := h.numbers.there e he id₁ sopKey k hp
      have hne : x.id ≠ v.id := by
        intro hid
        obtain rfl := ev.before.db.sopVersions.unique hx hv hid
        rw [hk] at hfree
        cases hfree
      by_cases hif : x.sopKey = v.sopKey ∧ x.status = .published
      · refine ⟨{ x with status := .superseded }, ?_, hkey, hk⟩
        rw [hrows]
        exact putVersion_mem (List.mem_map.mpr ⟨x, hx, if_pos hif⟩) hne
      · refine ⟨x, ?_, hkey, hk⟩
        rw [hrows]
        exact putVersion_mem (List.mem_map.mpr ⟨x, hx, if_neg hif⟩) hne
    · cases List.mem_singleton.mp he
      obtain ⟨⟨actor', hc'⟩, x, hx, hid, rfl⟩ := hp
      cases hc.call_eq hc'
      obtain rfl := ev.before.db.sopVersions.unique hx hv hid
      rw [show k = n from hc.val_eq hc']
      exact ⟨_, hmem, rfl, rfl⟩
  · rcases List.sublist_append_iff.mp hxy with ⟨l, l', heq, hl, hl'⟩
    rcases List.sublist_singleton.mp hl' with rfl | rfl
    · rw [List.append_nil] at heq
      rw [← heq] at hl
      exact h.numbers.ordered x y hl id₁ id₂ sopKey k m hpx hpy
    · obtain ⟨rfl, rfl⟩ : l = [x] ∧ y = ev := by
        have hsplit := List.append_inj' (show [x] ++ [y] = l ++ [ev] from heq) rfl
        exact ⟨hsplit.1.symm, List.singleton_inj.mp hsplit.2⟩
      -- The new number is above those that were given.
      obtain ⟨u, hu, hkey, hk⟩ := h.numbers.there x (List.singleton_sublist.mp hl) id₁ sopKey k hpx
      obtain ⟨⟨actor', hc'⟩, w, hw, hid, rfl⟩ := hpy
      cases hc.call_eq hc'
      obtain rfl := y.before.db.sopVersions.unique hw hv hid
      rw [show m = n from hc.val_eq hc', hnumber, ← hkey]
      exact lt_nextNumber hu hk

/-! ## Runs -/

/-- Approvals are given by people and tokens. -/
def Op.byUsers : Op → Prop
  | .db (.approveVersion actor _ _) => isSystem actor = false
  | _ => True

instance (o : Op) : Decidable o.byUsers := by
  unfold Op.byUsers
  split <;> infer_instance

/-- **Every step keeps the invariant of the store.** -/
theorem storeKept_step (huser : ev.op.byUsers) (hstep : ev.Happens)
    (h : StoreKept site ev.before.db tr) : StoreKept site ev.after.db (tr ++ [ev]) := by
  rcases hstep.db_cases with hsame | ⟨c, v, hc⟩
  · exact h.apart (Site.Event.apart_of_same hsame) (congrArg Db.sopVersions hsame)
  · rw [hc.1] at huser
    by_cases hwrites : Table.sopVersions ∈ c.writes
    · cases c with
      | createDraft => exact h.created hc
      | updateDraft => exact h.updated hc
      | discardDraft => exact h.discarded hc
      | submitDraft => exact h.submitted hc
      | approveVersion => exact h.approved huser hc
      | requestChanges => exact h.sentBack hc
      | publishVersion => exact h.published hc
      | retireSop => exact h.retired hc
      | _ => simp [DbCall.writes] at hwrites
    · exact h.apart (hc.apart hwrites) (DbCall.run_same hc.2 hwrites)

/-- **The lifecycle of the SOP versions**, over every run of a deployment, whose users create,
edit, discard, submit, approve, send back, publish and retire versions in any order. -/
theorem sops_reviewed (site : Site) (s : Estate) (hs : s.db.sopVersions.rows = [])
    (d : Config Calls Exn (Estate × List site.Event))
    (hd : site.service.recorded.Reaches (fun _ o _ _ => o.byUsers) (Config.idle (s, [])) d) :
    SopsReviewed site d.shared.1.db.sopVersions.rows d.shared.2 := by
  have hkept : StoreKept site d.shared.1.db d.shared.2 := by
    refine recorded_service_keep (I := fun s tr => StoreKept site s.db tr)
      (fun ev tr _ hstep huser h => storeKept_step huser hstep h) hd ⟨fun v hv => ?_, ?_⟩
    · rw [hs] at hv
      cases hv
    · exact ⟨fun _ he => (nomatch he), fun _ _ h => (nomatch h)⟩
  have hok := d.shared.1.db.sopVersions.ok
  have hnotDraft : ∀ v : SopVersion, v.status.isFrozen = true → v.status ≠ .draft := by
    intro v hf hd
    rw [hd] at hf
    cases hf
  refine ⟨fun v hv hf => ?_, fun v hv hf => ((hkept.version v hv).submitted (hnotDraft v hf)).2,
    fun v hv hf => ((hkept.version v hv).submitted (hnotDraft v hf)).1, fun v hv hf who hw ha => ?_,
    hok.onePublished, hok.oneNumber, fun v hv n hn => (hkept.version v hv).published n hn,
    hkept.numbers.ordered⟩
  · obtain ⟨hsome, -⟩ := hok.approvedBySomeone v hv hf
    obtain ⟨a, ha⟩ := Option.isSome_iff_exists.mp hsome
    refine ⟨a, ha, fun heq => hok.twoPeople v hv ?_⟩
    rw [ha, heq]
  · rcases (hkept.version v hv).writer who hw with rfl | hsystem
    · exact hok.twoPeople v hv ha
    · rw [(hkept.version v hv).approver hf who ha] at hsystem
      cases hsystem

end

/-- A version is written by one person, approved by another, and published. -/
theorem sops_reviewed_sample : ∃ d : Config Calls Exn (Estate × List servingSite.Event),
    d.shared.1.db.sopVersions.rows.map (fun v => (v.status, v.version)) = [(.published, some 1)] ∧
      SopsReviewed servingSite d.shared.1.db.sopVersions.rows d.shared.2 := by
  have hplay : ((servingSite.service.recorded.playIf (fun _ o _ _ => decide o.byUsers)
      (Config.idle (sampleEstate, []))
      [.start (Op.alone (.db (.createDraft "user:a" ⟨actingSop, .obj []⟩))), .op 0 smooth,
        .start (Op.alone (.db (.submitDraft "user:a" 0))), .op 1 smooth,
        .start (Op.alone (.db (.approveVersion "user:b" 0 "restart-job"))), .op 2 smooth,
        .start (Op.alone (.db (.publishVersion "user:c" 0))), .op 3 smooth]).map fun d =>
          d.shared.1.db.sopVersions.rows.map fun v => (v.status, v.version)) =
      some [(.published, some 1)] := by
    decide +kernel
  obtain ⟨d, hd, hrows⟩ := Option.map_eq_some_iff.mp hplay
  refine ⟨d, hrows, sops_reviewed servingSite sampleEstate rfl d
    (System.playIf_reaches _ (fun _ _ _ _ h => of_decide_eq_true h) (fun p hp => ?_) hd)⟩
  simp only [List.mem_cons, System.Move.start.injEq, List.not_mem_nil, reduceCtorEq, false_or,
    or_false] at hp
  rcases hp with rfl | rfl | rfl | rfl
  all_goals exact Service.outside _ rfl

end L1Agent
