import L1Agent.Sop.DraftCalls

/-! # A revision that is skipped has been imported

`create_draft` returns `none` where it has found a version of the article's revision, and where a
unique index has refused a row.  The index on the sources refuses a revision that is there; the
one on the keys of the SOPs refuses an SOP that has appeared since the look-up, whoever made it.

The statements are about recorded runs of the store.  Where the refusals are telling (`Op.Telling`),
no SOP of an article appears between the look-up and the insertion, and no two revisions are one in
the columns.  In a run of this kind a skipped revision was there during the call, and each article
of a sync that moves its cursor has become a draft, was there, or is on record with an error
(`skipped_imported`); `skips_unimported` is a run of the other kind.
-/
namespace L1Agent
namespace Drafting
open Interleaving Transactions

/-! ## The versions -/

/-- What a statement of thread `t` does to the versions. -/
inductive Touched (t : Nat) (st : Statement) (versions : List (Slot VersionRow)) :
    List (Slot VersionRow) → Prop where
  | same : Touched t st versions versions
  | inserted (row : VersionRow) (h : st = .insertVersion row) :
    Touched t st versions (insert t row versions)
  | written (p : VersionRow → Bool) (f : VersionRow → Option VersionRow)
    (h : ∀ v v', f v = some v' → v'.source = v.source) :
    Touched t st versions (Transactions.write t p f versions)
  | committed : Touched t st versions (commit t versions)
  | rolledBack (u : Nat) : Touched t st versions (rollback u versions)

namespace Store
variable {t : Nat} {s s' : Store}

theorem inserted_eq {α : Type} {after : Store} {room : Room} {value : α} {x : Except Exn α}
    (h : s.inserted t after room value = some (x, s')) :
    room = .free ∧ x = .ok value ∧ s' = after ∨
      room = .taken ∧ x = .error .integrity ∧ s' = s.rolledBack t := by
  cases room with
  | free =>
    cases h
    exact .inl ⟨rfl, rfl, rfl⟩
  | taken =>
    cases h
    exact .inr ⟨rfl, rfl, rfl⟩
  | «open» => cases h

theorem within_touched {st : Statement} {x : Except Exn st.Val}
    (h : s.within t st = some (x, s')) : Touched t st s.versions s'.versions := by
  cases st with
  | insertVersion row =>
    obtain ⟨-, -, rfl⟩ | ⟨-, -, rfl⟩ := inserted_eq h
    · exact .inserted row rfl
    · exact .rolledBack t
  | insertSop row =>
    obtain ⟨-, -, rfl⟩ | ⟨-, -, rfl⟩ := inserted_eq h
    · exact .same
    · exact .rolledBack t
  | lockVersion versionId =>
    simp only [within] at h
    split at h
    · cases h
    · cases h
      exact .written _ _ (by rintro v v' ⟨⟩; rfl)
  | updateVersion versionId content authorId =>
    cases h
    exact .written _ _ (by rintro v v' ⟨⟩; rfl)
  | setStatus versionId status =>
    cases h
    exact .written _ _ (by rintro v v' ⟨⟩; rfl)
  | deleteVersion versionId =>
    cases h
    exact .written _ _ (by rintro v v' ⟨⟩)
  | append event =>
    simp only [within] at h
    split at h
    · cases h
    · cases h
      exact .same
  | sopOf sopKey =>
    cases h
    exact .same
  | seen source =>
    cases h
    exact .same
  | _ => cases h

/-- The statement of a transaction fails, or is carried out. -/
theorem run_within {st : Statement} {ch : Choice} {x : Except Exn st.Val}
    (h : (if ch.fails ∨ t ∈ s.gone then some (.error (.other "DBAPIError"), s.rolledBack t)
      else s.within t st) = some (x, s')) :
    x = .error (.other "DBAPIError") ∧ s' = s.rolledBack t ∨ s.within t st = some (x, s') := by
  split at h
  · cases h
    exact .inl ⟨rfl, rfl⟩
  · exact .inr h

theorem run_touched {st : Statement} {ch : Choice} {x : Except Exn st.Val}
    (h : s.run t st ch = some (x, s')) : Touched t st s.versions s'.versions := by
  have hwithin : x = .error (.other "DBAPIError") ∧ s' = s.rolledBack t ∨
      s.within t st = some (x, s') → Touched t st s.versions s'.versions := by
    rintro (⟨-, rfl⟩ | h)
    · exact .rolledBack t
    · exact within_touched h
  cases st with
  | uuid4 =>
    cases h
    exact .same
  | returned created =>
    cases h
    exact .same
  | changedSince cursor =>
    cases h
    exact .same
  | draftFrom article =>
    cases h
    exact .same
  | rollback =>
    cases h
    exact .rolledBack t
  | abort thread =>
    cases h
    exact .rolledBack thread
  | cursor sourceId =>
    simp only [run] at h
    split at h
    · cases h
      exact .same
    · cases h
      exact .same
  | record actor result cursor =>
    simp only [run] at h
    split at h
    · cases h
      exact .same
    · split at h
      · cases h
      · cases h
        exact .same
  | commit =>
    simp only [run] at h
    split at h
    · cases h
      exact .rolledBack t
    · cases h
      exact .committed
  | _ => exact hwithin (run_within h)

/-- A transaction that has ended has inserted nothing that is not committed. -/
theorem run_ended {st : Statement} {ch : Choice} {x : Except Exn st.Val}
    (h : s.run t st ch = some (x, s')) (hst : st = .commit ∨ st = .rollback) :
    ∀ e ∈ s'.versions, e.owner ≠ some t := by
  have hrolled : ∀ e ∈ (s.rolledBack t).versions, e.owner ≠ some t := fun e he =>
    let ⟨_, _, _, _, hown, _⟩ := mem_rollback he
    hown
  rcases hst with rfl | rfl
  · simp only [run] at h
    split at h
    · cases h
      exact hrolled
    · cases h
      intro e he
      obtain ⟨_, _, hown, _⟩ := mem_commit he
      exact hown
  · cases h
    exact hrolled

/-- **An IntegrityError is an index's refusal.** -/
theorem run_integrity {st : Statement} {ch : Choice}
    (h : s.run t st ch = some (.error .integrity, s')) :
    (∃ row, st = .insertSop row ∧ room t (fun r => r.sopKey == row.sopKey) s.sops = .taken) ∨
      ∃ row, st = .insertVersion row ∧ room t row.conflicts s.versions = .taken := by
  have hread : ∀ {α : Type} (r : Except String α), r.mapError Exn.other ≠ .error .integrity := by
    intro α r
    cases r with
    | ok a => rintro ⟨⟩
    | error name => rintro ⟨⟩
  cases st with
  | insertSop row =>
    obtain ⟨hx, -⟩ | hwithin := run_within h
    · cases hx
    obtain ⟨-, hx, -⟩ | ⟨hroom, -, -⟩ := inserted_eq hwithin
    · cases hx
    · exact .inl ⟨row, rfl, hroom⟩
  | insertVersion row =>
    obtain ⟨hx, -⟩ | hwithin := run_within h
    · cases hx
    obtain ⟨-, hx, -⟩ | ⟨hroom, -, -⟩ := inserted_eq hwithin
    · cases hx
    · exact .inr ⟨row, rfl, hroom⟩
  | changedSince cursor => exact absurd (congrArg Prod.fst (Option.some.inj h)) (hread ch.read)
  | draftFrom article => exact absurd (congrArg Prod.fst (Option.some.inj h)) (hread ch.draft)
  | cursor sourceId =>
    simp only [run] at h
    split at h
    · cases h
    · cases h
  | record actor result cursor =>
    simp only [run] at h
    split at h
    · cases h
    · split at h
      · cases h
      · have hx := congrArg Prod.fst (Option.some.inj h)
        dsimp only at hx
        split at hx
        · cases hx
        · cases hx
  | commit =>
    simp only [run] at h
    split at h
    · cases h
    · have hx := congrArg Prod.fst (Option.some.inj h)
      dsimp only at hx
      split at hx
      · cases hx
      · cases hx
  | lockVersion versionId =>
    obtain ⟨hx, -⟩ | hwithin := run_within h
    · cases hx
    simp only [within] at hwithin
    split at hwithin
    · cases hwithin
    · cases hwithin
  | append event =>
    obtain ⟨hx, -⟩ | hwithin := run_within h
    · cases hx
    simp only [within] at hwithin
    split at hwithin
    · cases hwithin
    · cases hwithin
  | uuid4 => cases h
  | returned created => cases h
  | rollback => cases h
  | abort thread => cases h
  | _ =>
    obtain ⟨hx, -⟩ | hwithin := run_within h
    · cases hx
    · cases hwithin

/-- The answer that the revision is there. -/
theorem run_seen {source : Source} {ch : Choice}
    (h : s.run t (.seen source) ch = some ((.ok true : Except Exn Bool), s')) :
    ∃ v ∈ Transactions.seenBy t s.versions, v.source = source := by
  obtain ⟨hx, -⟩ | hwithin := run_within h
  · cases hx
  have hany : (Transactions.seenBy t s.versions).any (·.source == source) = true := by
    have hx := congrArg Prod.fst (Option.some.inj hwithin)
    exact Except.ok.inj hx
  obtain ⟨v, hv, heq⟩ := List.any_eq_true.mp hany
  exact ⟨v, hv, eq_of_beq heq⟩

end Store

/-! ## Runs -/

section
variable {tools : Tools}

abbrev Tools.Event (tools : Tools) := (store tools).Event

/-- What a thread has done since `create_draft` last returned to it. -/
def call (t : Nat) (tr : List tools.Event) : List tools.Event :=
  tr.foldl (fun cur ev => if ev.thread = t then if ev.op.returns then [] else cur ++ [ev]
    else cur) []

theorem call_snoc (t : Nat) (tr : List tools.Event) (ev : tools.Event) :
    call t (tr ++ [ev]) = if ev.thread = t then if ev.op.returns then [] else call t tr ++ [ev]
      else call t tr := by
  simp only [call, List.foldl_append, List.foldl_cons, List.foldl_nil]

theorem call_subset (t : Nat) (tr : List tools.Event) :
    ∀ ev ∈ call t tr, ev ∈ tr ∧ ev.thread = t := by
  induction tr using List.reverseRec with
  | nil => exact fun ev hev => nomatch hev
  | append_singleton tr e ih =>
    intro ev hev
    rw [call_snoc] at hev
    split at hev
    · rename_i hthread
      split at hev
      · cases hev
      · rcases List.mem_append.mp hev with hev | hev
        · exact ⟨List.mem_append_left _ (ih ev hev).1, (ih ev hev).2⟩
        · cases List.mem_singleton.mp hev
          exact ⟨List.mem_append_right _ (List.mem_singleton_self _), hthread⟩
    · exact ⟨List.mem_append_left _ (ih ev hev).1, (ih ev hev).2⟩

/-- The call's events are what the thread knows of it. -/
theorem current_own (t : Nat) (tr : List tools.Event) :
    current (System.own t tr) = (call t tr).map fun ev => ⟨ev.op, ev.answer⟩ := by
  induction tr using List.reverseRec with
  | nil => rfl
  | append_singleton tr e ih =>
    rw [call_snoc]
    by_cases hthread : e.thread = t
    · subst hthread
      rw [System.own_snoc, current_snoc, if_pos rfl, ih]
      by_cases hreturns : e.op.returns = true
      · rw [if_pos hreturns, if_pos hreturns]
        rfl
      · rw [if_neg hreturns, if_neg hreturns, List.map_append]
        rfl
    · rw [System.own_other tr hthread, if_neg hthread, ih]

/-- **What the open transactions make of the versions.** -/
structure VersionsKept (s : Store) (tr : List tools.Event) : Prop where
  owned : ∀ e ∈ s.versions, ∀ t, e.owner = some t → inserting (System.own t tr) = true
  written : ∀ e ∈ s.versions, ∀ t v, e.writer = some (t, some v) → v.source = e.row.source

theorem Touched.owner {t : Nat} {st : Statement} {versions after : List (Slot VersionRow)}
    (h : Touched t st versions after) {e : Slot VersionRow} (he : e ∈ after) {u : Nat}
    (howner : e.owner = some u) :
    (∃ e' ∈ versions, e'.owner = some u) ∨ u = t ∧ ∃ row, st = .insertVersion row := by
  cases h with
  | same => exact .inl ⟨e, he, howner⟩
  | inserted row hst =>
    rcases mem_insert.mp he with he | rfl
    · exact .inl ⟨e, he, howner⟩
    · exact .inr ⟨(Option.some.inj howner).symm, row, hst⟩
  | written p f hf =>
    obtain ⟨e', he', -, hown, -⟩ := mem_write he
    exact .inl ⟨e', he', hown.symm.trans howner⟩
  | committed =>
    obtain ⟨e', he', -, ⟨-, hnone, -⟩ | ⟨-, -, hown | ⟨-, hnone⟩⟩⟩ := mem_commit he
    · rw [hnone] at howner
      cases howner
    · exact .inl ⟨e', he', hown.symm.trans howner⟩
    · rw [hnone] at howner
      cases howner
  | rolledBack v =>
    obtain ⟨e', he', -, hown, -⟩ := mem_rollback he
    exact .inl ⟨e', he', hown.symm.trans howner⟩

/-- The source of what a transaction sees is the row's. -/
theorem seenBy_source {e : Slot VersionRow} {t : Nat} {v : VersionRow}
    (hwritten : ∀ u v, e.writer = some (u, some v) → v.source = e.row.source)
    (h : e.seenBy t = some v) : v.source = e.row.source := by
  rcases (Slot.seenBy_some h).2 with rfl | hwriter
  · rfl
  · exact hwritten t v hwriter

theorem Touched.writer {t : Nat} {st : Statement} {versions after : List (Slot VersionRow)}
    (h : Touched t st versions after)
    (hwritten : ∀ e ∈ versions, ∀ t v, e.writer = some (t, some v) → v.source = e.row.source) :
    ∀ e ∈ after, ∀ t v, e.writer = some (t, some v) → v.source = e.row.source := by
  intro e he u v hwriter
  cases h with
  | same => exact hwritten e he u v hwriter
  | inserted row hst =>
    rcases mem_insert.mp he with he | rfl
    · exact hwritten e he u v hwriter
    · cases hwriter
  | written p f hf =>
    obtain ⟨e', he', hrow, -, hsame | ⟨row, hseen, hnew⟩⟩ := mem_write he
    · rw [hrow]
      exact hwritten e' he' u v (hsame.symm.trans hwriter)
    · have hpair := hnew.symm.trans hwriter
      have hv : f row = some v := congrArg Prod.snd (Option.some.inj hpair)
      rw [hrow, hf row v hv]
      exact seenBy_source (hwritten e' he') hseen
  | committed =>
    obtain ⟨e', he', -, ⟨-, -, hnone⟩ | ⟨hrow, hsame, -⟩⟩ := mem_commit he
    · rw [hnone] at hwriter
      cases hwriter
    · rw [hrow]
      exact hwritten e' he' u v (hsame.symm.trans hwriter)
  | rolledBack w =>
    obtain ⟨e', he', hrow, -, -, hsame | hnone⟩ := mem_rollback he
    · rw [hrow]
      exact hwritten e' he' u v (hsame.symm.trans hwriter)
    · rw [hnone] at hwriter
      cases hwriter

/-- **Every statement keeps it.** -/
theorem VersionsKept.step {ev : tools.Event} {tr : List tools.Event}
    (h : VersionsKept ev.before tr)
    (hrun : ev.before.run ev.thread ev.op.statement ev.choice = some (ev.answer, ev.after)) :
    VersionsKept ev.after (tr ++ [ev]) := by
  have htouched := Store.run_touched hrun
  refine ⟨fun e he u howner => ?_, htouched.writer h.written⟩
  have hearlier := htouched.owner he howner
  by_cases hthread : ev.thread = u
  · subst hthread
    rw [System.own_snoc, inserting_snoc]
    split
    · rfl
    · rename_i hst
      exact absurd howner (Store.run_ended hrun (.inl hst) e he)
    · rename_i hst
      exact absurd howner (Store.run_ended hrun (.inr hst) e he)
    · rename_i hno _ _
      rcases hearlier with ⟨e', he', howner'⟩ | ⟨-, row, hst⟩
      · exact h.owned e' he' _ howner'
      · exact absurd hst (hno row)
  · rw [System.own_other tr hthread]
    rcases hearlier with ⟨e', he', howner'⟩ | ⟨hu, -⟩
    · exact h.owned e' he' _ howner'
    · exact absurd hu.symm hthread

/-- A version of the source is committed. -/
def Imported (source : Source) (s : Store) : Prop :=
  ∃ v ∈ committed s.versions, v.source = source

instance (source : Source) (s : Store) : Decidable (Imported source s) :=
  inferInstanceAs (Decidable (∃ v ∈ committed s.versions, v.source = source))

/-- What a thread sees of the versions while it has inserted none is committed. -/
theorem VersionsKept.imported {s : Store} {tr : List tools.Event} (h : VersionsKept s tr) {t : Nat}
    (hnone : inserting (System.own t tr) = false) {v : VersionRow}
    (hv : v ∈ Transactions.seenBy t s.versions) : Imported v.source s := by
  obtain ⟨e, he, hseen⟩ := mem_seenBy hv
  rcases (Slot.seenBy_some hseen).1 with howner | howner
  · exact ⟨e.row, mem_committed.mpr ⟨e, he, howner, rfl⟩,
      (seenBy_source (h.written e he) hseen).symm⟩
  · rw [h.owned e he t howner] at hnone
    cases hnone

/-- The columns hold the article's id and revision in full. -/
def Source.Fits (source : Source) : Prop :=
  source.article.length ≤ 500 ∧ source.revision.length ≤ 200

instance (source : Source) : Decidable source.Fits :=
  inferInstanceAs (Decidable (_ ∧ _))

/-- **A refusal is telling**: the SOP of an article has not been made since the look-up, and its
revision is in the columns in full, or no other reads the same there. -/
def Op.Telling (t : Nat) (s : Store) (o : Op) : Prop :=
  match o.request, o.statement with
  | .create d, .insertSop row => ∀ _ ∈ d.source,
      room t (fun r => r.sopKey == row.sopKey) s.sops ≠ .taken
  | .create d, .insertVersion row => ∀ source ∈ d.source, source.Fits ∨
      room t row.conflicts s.versions ≠ .taken
  | _, _ => True

instance (t : Nat) (s : Store) (o : Op) : Decidable (o.Telling t s) := by
  unfold Op.Telling
  split <;> infer_instance

/-- **Each skipped revision** was there during the call. -/
def SkipsImported (tr : List tools.Event) : Prop :=
  ∀ pre ev post, tr = pre ++ ev :: post → ∀ d source, ev.op = ⟨.create d, .returned none⟩ →
    d.source = some source → ∃ e ∈ call ev.thread pre, Imported source e.before

/-- A sync that moves its cursor has made a draft of each article, or found it there, or has put
an error on record. -/
def LosesNothing (tr : List tools.Event) : Prop :=
  ∀ pre ev post, tr = pre ++ ev :: post → ∀ sourceId actor who result cursor,
    ev.op = ⟨.sync sourceId actor, .record who result (some cursor)⟩ →
    ∃ since articles, answered sourceId actor since articles cursor ∈ System.own ev.thread pre ∧
      ∀ article ∈ articles,
        (∃ d id, d.source = some ⟨sourceId, article.id, article.revision⟩ ∧
          left d (some id) ∈ System.own ev.thread pre) ∨
        (∃ e ∈ pre, Imported ⟨sourceId, article.id, article.revision⟩ e.before) ∨
        ∃ message, article.id ++ ": " ++ message ∈ result.errors

/-! ## The result -/

/-- What is known of each event of a run from the empty store. -/
def Known (pre : List tools.Event) (ev : tools.Event) : Prop :=
  Allowed (System.own ev.thread pre) ev.op ∧ ev.op.Telling ev.thread ev.before ∧
    ev.before.run ev.thread ev.op.statement ev.choice = some (ev.answer, ev.after) ∧
    VersionsKept ev.before pre

theorem known_of_reaches {d : Config Statements Exn (Store × List tools.Event)}
    (hr : (store tools).recorded.Reaches (fun t o _ st => o.Telling t st.1)
      (Config.idle ({}, [])) d) : System.Each Known d.shared.2 := by
  have hallowed : System.Each (fun pre (ev : tools.Event) =>
      Allowed (System.own ev.thread pre) ev.op) d.shared.2 :=
    System.recorded_follows (by rintro _ ⟨request, rfl⟩; exact serve_follows tools request) hr
  have heach := System.recorded_each hr
  have hkept := (System.recorded_induction (I := fun s tr => VersionsKept s tr) hr
    ⟨fun _ h => (nomatch h), fun _ h => (nomatch h)⟩ fun pre ev post hsplit h =>
      h.step (heach pre ev post hsplit).2).2
  intro pre ev post hsplit
  obtain ⟨htelling, hrun⟩ := heach pre ev post hsplit
  exact ⟨hallowed pre ev post hsplit, htelling, hrun, hkept pre ev post hsplit⟩

theorem clipText_fits {n : Nat} {text : String} (h : text.length ≤ n) : clipText n text = text := by
  unfold clipText
  rw [List.take_of_length_le (by rwa [String.length_toList]), String.ofList_toList]

theorem Draft.row_source {d : Draft} {source : Source} (hsource : d.source = some source)
    (hfits : source.Fits) (versionId sopId : Nat) (data : Json) :
    (d.row versionId sopId data).source = source := by
  show Source.mk (d.source.elim "" (·.sourceId))
    (d.source.elim "" fun source => clipText 500 source.article)
    (d.source.elim "" fun source => clipText 200 source.revision) = source
  rw [hsource]
  show Source.mk source.sourceId (clipText 500 source.article) (clipText 200 source.revision) = _
  rw [clipText_fits hfits.1, clipText_fits hfits.2]

/-- **What a refusal tells.**  It is the index on the sources that has refused the row, and so a
version has the same columns; where the source fits them, it is the version's. -/
theorem Known.refused {pre : List tools.Event} {e : tools.Event} (h : Known pre e) {d : Draft}
    {source : Source} (hsource : d.source = some source) (hrequest : e.op.request = .create d)
    (hanswer : e.answer = .error .integrity) : Imported source e.before := by
  obtain ⟨thread, ⟨request, st⟩, ch, before, answer, after⟩ := e
  obtain rfl : request = .create d := hrequest
  obtain rfl : answer = .error .integrity := hanswer
  obtain ⟨hallowed, htelling, hrun, hkept⟩ := h
  rcases Store.run_integrity hrun with ⟨row, hst, htaken⟩ | ⟨row, hst, htaken⟩
  · obtain rfl : st = .insertSop row := hst
    exact absurd htaken (htelling source hsource)
  · obtain rfl : st = .insertVersion row := hst
    rcases htelling source hsource with hfits | hroom
    · obtain ⟨hinserting, d', versionId, sopId, data, hd', rfl⟩ := hallowed
      obtain rfl : d = d' := Request.create.inj hd'
      obtain ⟨v, hv, hconflicts⟩ := room_taken htaken
      have hsame := eq_of_beq (Bool.and_eq_true_iff.mp hconflicts).2
      rw [Draft.row_source hsource hfits] at hsame
      rw [← hsame]
      exact hkept.imported hinserting hv
    · exact absurd htaken hroom

theorem Known.found {pre : List tools.Event} {e : tools.Event} (h : Known pre e) {d : Draft}
    {source : Source} (he : (⟨e.op, e.answer⟩ : Statements.Done) = found d source) :
    Imported source e.before := by
  obtain ⟨thread, op, ch, before, answer, after⟩ := e
  cases he
  obtain ⟨hinserting, -, hrun, hkept⟩ := h
  obtain ⟨v, hv, rfl⟩ := Store.run_seen hrun
  exact hkept.imported hinserting hv

theorem skips_imported {tr : List tools.Event} (h : System.Each Known tr) : SkipsImported tr := by
  rintro pre ⟨thread, op, ch, before, answer, after⟩ post hsplit d source hop hsource
  obtain rfl : op = ⟨.create d, .returned none⟩ := hop
  have hknown : ∀ e ∈ call thread pre, ∃ pre', Known pre' e := by
    intro e he
    obtain ⟨pre', hpre', -⟩ := h.mem
      (hsplit ▸ List.mem_append_left _ (call_subset thread pre e he).1)
    exact ⟨pre', hpre'⟩
  rcases (h pre _ post hsplit).1 source hsource with ⟨x, hx, hrequest, hanswer⟩ | hfound
  · rw [current_own] at hx
    obtain ⟨e, he, rfl⟩ := List.mem_map.mp hx
    obtain ⟨pre', hpre'⟩ := hknown e he
    exact ⟨e, he, hpre'.refused hsource hrequest hanswer⟩
  · rw [current_own] at hfound
    obtain ⟨e, he, hdone⟩ := List.mem_map.mp hfound
    obtain ⟨pre', hpre'⟩ := hknown e he
    exact ⟨e, he, hpre'.found hdone⟩

theorem loses_nothing {tr : List tools.Event} (h : System.Each Known tr) : LosesNothing tr := by
  rintro pre ⟨thread, op, ch, before, answer, after⟩ post hsplit sourceId actor who result cursor hop
  obtain rfl : op = ⟨.sync sourceId actor, .record who result (some cursor)⟩ := hop
  obtain ⟨since, articles, hread, htreated⟩ := (h pre _ post hsplit).1
  have hpre : System.Each Known pre := fun p e q hs =>
    h p e (q ++ _ :: post) (by rw [hsplit, hs, List.append_assoc, List.cons_append])
  refine ⟨since, articles, hread, fun article harticle => ?_⟩
  rcases htreated article harticle with ⟨d, created, hsource, hleft⟩ | herror
  · cases created with
    | some id => exact .inl ⟨d, id, hsource, hleft⟩
    | none =>
      obtain ⟨ch', before', after', hev⟩ := System.mem_own hleft
      obtain ⟨pre', post', hsplit'⟩ := List.append_of_mem hev
      obtain ⟨e, he, himported⟩ := skips_imported hpre pre' _ post' hsplit' d _ rfl hsource
      refine .inr (.inl ⟨e, ?_, himported⟩)
      rw [hsplit']
      exact List.mem_append_left _ (call_subset _ pre' e he).1
  · exact .inr (.inr herror)

/-- **Only what is there is skipped**, in every run in which the indexes are telling. -/
theorem skipped_imported (tools : Tools) (d : Config Statements Exn (Store × List tools.Event))
    (hr : (store tools).recorded.Reaches (fun t o _ st => o.Telling t st.1)
      (Config.idle ({}, [])) d) : SkipsImported d.shared.2 ∧ LosesNothing d.shared.2 := by
  have hknown := known_of_reaches hr
  exact ⟨skips_imported hknown, loses_nothing hknown⟩

/-- The revisions that were skipped and were not there, after the events `pre`. -/
def missed : List tools.Event → List tools.Event → List Source
  | _, [] => []
  | pre, ev :: post =>
    (match ev.op.request, ev.op.statement with
      | .create d, .returned none =>
        d.source.toList.filter fun source => ¬ ∃ e ∈ call ev.thread pre, Imported source e.before
      | _, _ => []) ++ missed (pre ++ [ev]) post

theorem missed_eq_nil {tr : List tools.Event} (h : SkipsImported tr) :
    ∀ post pre, tr = pre ++ post → missed pre post = [] := by
  intro post
  induction post with
  | nil => exact fun _ _ => rfl
  | cons ev post ih =>
    intro pre hsplit
    rw [missed, ih (pre ++ [ev]) (by rw [hsplit, List.append_assoc, List.singleton_append]),
      List.append_nil]
    split
    · rename_i d hrequest hst
      refine List.filter_eq_nil_iff.mpr fun source hsource => ?_
      have hop : ev.op = ⟨.create d, .returned none⟩ := congrArg₂ Op.mk hrequest hst
      obtain ⟨e, he, himported⟩ := h pre ev post hsplit d source hop (Option.mem_toList.mp hsource)
      simpa using ⟨e, he, himported⟩
    · rfl

end

/-! ## Two syncs of a source -/

def sampleTools : Tools where
  builtins := { repr := fun _ => "", parseInt := fun _ => none, isFloat := fun _ => false }
  contentHash _ := "digest"

/-- The first steps of a sync that is told of one article, up to the look-up of its SOP. -/
def told (t : Nat) (revision : String) : List (Nat × Choice) :=
  [(t, {}), (t, { read := .ok ([⟨"restart.md", revision⟩], revision) }),
    (t, { draft := .ok (.obj [("sop_id", .str "wiki-restart")], "ingested", "") }), (t, {}), (t, {})]

def steps (t n : Nat) : List (Nat × Choice) := List.replicate n (t, {})

/-- Two syncs of one source, whose steps are taken in an order. -/
def sampleSyncs (order : List (Nat × Choice)) : List (store sampleTools).recorded.Move :=
  .start (serve sampleTools (.sync "wiki" "system:sync")) ::
    .start (serve sampleTools (.sync "wiki" "user:ann")) :: order.map fun x => .op x.1 x.2

theorem starts_sampleSyncs (order : List (Nat × Choice)) :
    (store sampleTools).recorded.Starts (sampleSyncs order) := by
  have hentry : ∀ request, (store sampleTools).recorded.Entry (serve sampleTools request) :=
    fun request => ⟨request, rfl⟩
  exact .start (hentry _) (.start (hentry _) .each)

/-- The second sync begins when the first has ended. -/
theorem skipped_imported_sample : ∃ d : Config Statements Exn (Store × List sampleTools.Event),
    (committed d.shared.1.versions).length = 1 ∧
      SkipsImported d.shared.2 ∧ LosesNothing d.shared.2 := by
  have hplay : ((store sampleTools).recorded.playIf
      (fun t (o : Op) _ st => decide (o.Telling t st.1)) (Config.idle ({}, []))
      (sampleSyncs (told 0 "1" ++ steps 0 8 ++ told 1 "1" ++ steps 1 4))).map
      (fun d => (committed d.shared.1.versions).length) = some 1 := by
    decide +kernel
  obtain ⟨d, hd, hends⟩ := Option.map_eq_some_iff.mp hplay
  refine ⟨d, hends, skipped_imported sampleTools d ?_⟩
  refine System.playIf_reaches _ (fun t (o : Op) ch st hok => ?_) (starts_sampleSyncs _) hd
  exact of_decide_eq_true hok

/-- **A revision can be skipped that is not there.**  Two syncs find that the article has no SOP
yet, and the second has been told of a newer revision: the first makes the SOP, and the second is
refused for its key. -/
theorem skips_unimported : ¬ ∀ (tools : Tools)
    (d : Config Statements Exn (Store × List tools.Event)),
    (store tools).recorded.Reaches (store tools).recorded.anyStep (Config.idle ({}, [])) d →
      SkipsImported d.shared.2 := by
  intro hall
  have hplay : ((store sampleTools).recorded.play (Config.idle ({}, []))
      (sampleSyncs (told 0 "1" ++ told 1 "2" ++ steps 0 8 ++ steps 1 5))).map
      (fun d => missed [] d.shared.2) = some [⟨"wiki", "restart.md", "2"⟩] := by
    decide +kernel
  obtain ⟨d, hd, hends⟩ := Option.map_eq_some_iff.mp hplay
  have hskips := hall sampleTools d (System.play_reaches _ (starts_sampleSyncs _) hd)
  rw [missed_eq_nil hskips d.shared.2 [] rfl] at hends
  cases hends

end Drafting
end L1Agent
