import L1Agent.Runner.Conduct
import L1Agent.Runner.Stages
import Mathlib.Data.List.Pairwise

/-! # A call is handed out once

Over every run of the control plane, from an empty queue on: `Kept` is the invariant, which ties
the rows to what has happened, and one event keeps it (`Kept.step`).

From it, a call is in one response at most, with the text that was signed for it
(`handed_out_once`), and it is not in any when its caller has been told that it was withdrawn
(`withdrawn_not_handed`).  A write is released at a moment at which no kill switch was on
(`write_released`).  What the caller is given as the result was returned by the one runner that had
taken the call, and was recorded before the caller read it (`result_of_its_runner`).
-/
namespace L1Agent
namespace Dispatch
open Interleaving Handover
open Access (RunnerIdentity)

/-! ## Transactions -/

section Transactions
variable {c : DbCall} {ch : Choice} {s s' : State}

theorem transact_ok {v : c.Val} (h : transact c ch s = (.ok v, s')) :
    c.run ch.locked s.queue = some (v, s'.queue) := by
  unfold transact at h
  split at h
  · cases h
  · split at h
    · rename_i hrun _ _
      cases h
      exact hrun
    · cases h

/-- A transaction takes effect, or it leaves the queue as it is. -/
theorem transact_cases {x : Except Fault c.Val} (h : transact c ch s = (x, s')) :
    s'.issued = s.issued ∧
      (s'.queue = s.queue ∨ ∃ v, c.run ch.locked s.queue = some (v, s'.queue)) := by
  unfold transact at h
  split at h
  · cases h
    exact ⟨rfl, Or.inl rfl⟩
  · rename_i v queue hrun
    split at h
    · cases h
      exact ⟨rfl, Or.inr ⟨v, hrun⟩⟩
    · cases h
      by_cases hlanded : ch.landed = true
      · rw [if_pos hlanded]
        exact ⟨rfl, Or.inr ⟨v, hrun⟩⟩
      · rw [if_neg hlanded]
        exact ⟨rfl, Or.inl rfl⟩

/-- No transaction takes an event out of the audit log. -/
theorem run_audit {locked : List Nat} {q q' : Queue} {v : c.Val}
    (h : c.run locked q = some (v, q')) : q.audit ⊆ q'.audit := by
  cases c with
  | enqueue now new =>
    unfold DbCall.run at h
    dsimp only at h
    split_ifs at h
    cases h
    exact List.Subset.refl _
  | handOver event =>
    cases h
    exact List.subset_append_left _ _
  | setSwitch tenantId on =>
    cases tenantId with
    | none =>
      cases h
      exact List.Subset.refl _
    | some tenantId =>
      cases h
      exact List.Subset.refl _
  | _ =>
    cases h
    exact List.Subset.refl _

variable {o : Op} {x : o.Ans}

/-- An operation that is no transaction leaves the queue. -/
theorem step_queue (h : step o ch s = some (x, s')) (ho : ∀ c, o ≠ .db c) :
    s'.queue = s.queue := by
  cases o with
  | db c => exact absurd rfl (ho c)
  | uuid4 =>
    unfold step at h
    dsimp only at h
    split_ifs at h
    cases h
    rfl
  | _ => exact (congrArg (fun r => r.2.queue) (Option.some.inj h)).symm

theorem step_audit (h : step o ch s = some (x, s')) : s.queue.audit ⊆ s'.queue.audit := by
  by_cases hdb : ∃ c, o = .db c
  · obtain ⟨c, rfl⟩ := hdb
    obtain ⟨-, hqueue | ⟨v, hqueue⟩⟩ :=
      transact_cases (Option.some.inj h : transact c ch s = (x, s'))
    · rw [hqueue]
      exact List.Subset.refl _
    · exact run_audit hqueue
  · rw [step_queue h fun c hc => hdb ⟨c, hc⟩]
    exact List.Subset.refl _

theorem step_issued (h : step o ch s = some (x, s')) : ∀ id ∈ s.issued, id ∈ s'.issued := by
  intro id hid
  cases o with
  | db c =>
    have hsame := (transact_cases (Option.some.inj h : transact c ch s = (x, s'))).1
    rw [hsame]
    exact hid
  | uuid4 =>
    unfold step at h
    dsimp only at h
    split_ifs at h
    cases h
    exact List.mem_cons_of_mem _ hid
  | _ =>
    have hsame := congrArg (fun r => r.2.issued) (Option.some.inj h)
    exact hsame ▸ hid

/-- An id is given that was not given before. -/
theorem step_uuid4 {id : Nat} (h : step .uuid4 ch s = some (id, s')) :
    id ∉ s.issued ∧ id ∈ s'.issued := by
  unfold step at h
  dsimp only at h
  split_ifs at h with hin
  cases h
  exact ⟨hin, List.mem_cons_self⟩

end Transactions

/-- What a call is and what was put in the queue agree. -/
def CallRow.Of (row : CallRow) (new : NewCall) : Prop :=
  ∃ now status runnerId answer,
    row = { new.row now with status := status, runnerId := runnerId, answer := answer }

/-- A row comes from the call that is queued, or from the row before. -/
theorem Change.made {id : Nat} {c : DbCall} {before : Option CallRow} {row : CallRow}
    (h : Change id c before (some row)) :
    (∃ now new, c = .enqueue now new ∧ row.Of new) ∨
      ∃ old, before = some old ∧ ∀ new, old.Of new → row.Of new := by
  cases h with
  | same => exact Or.inr ⟨row, rfl, fun _ h => h⟩
  | queued now new hid => exact Or.inl ⟨now, new, rfl, now, .queued, none, none, rfl⟩
  | claimed now runner limit old =>
    refine Or.inr ⟨old, rfl, ?_⟩
    rintro new ⟨at', status, runnerId, answer, rfl⟩
    exact ⟨at', .claimed, some runner.id, answer, rfl⟩
  | answered tenantId reply runnerId old =>
    refine Or.inr ⟨old, rfl, ?_⟩
    rintro new ⟨at', status, runnerId, answer, rfl⟩
    exact ⟨at', .done, runnerId, some reply, rfl⟩
  | cancelled tenantId old =>
    refine Or.inr ⟨old, rfl, ?_⟩
    rintro new ⟨at', status, runnerId, answer, rfl⟩
    exact ⟨at', .cancelled, runnerId, answer, rfl⟩

/-! ## The invariant -/

variable {site : Site}

/-- What an event does with a call. -/
def did (id : Nat) (ev : (plane site).Event) : List CallMove :=
  movesOf (ev.before.queue.row? id) (ev.after.queue.row? id)

/-- What has been done with a call. -/
def moves (id : Nat) (tr : List (plane site).Event) : List CallMove := tr.flatMap (did id)

/-- A thread has put a call in the queue, or has tried to. -/
def Enqueues (t : Nat) (now : Rat) (new : NewCall) (tr : List (plane site).Event) : Prop :=
  ∃ v, asked (.enqueue now new) v ∈ System.own t tr

/-- **The invariant.** -/
structure Kept (s : State) (tr : List (plane site).Event) : Prop where
  keyed : s.queue.Keyed
  issued : ∀ t id, (⟨.uuid4, id⟩ : Calls.Done) ∈ System.own t tr → id ∈ s.issued
  /-- An id is given to one thread. -/
  one : ∀ t u id, (⟨.uuid4, id⟩ : Calls.Done) ∈ System.own t tr →
    (⟨.uuid4, id⟩ : Calls.Done) ∈ System.own u tr → t = u
  drawn : ∀ t now new, Enqueues t now new tr → (⟨.uuid4, new.id⟩ : Calls.Done) ∈ System.own t tr
  shown : ∀ id, ∃ st : CallStage, Stage.absent.Goes (moves id tr) st ∧
    ∀ row, s.queue.row? id = some row → row.stage = st
  untouched : ∀ id, (∀ t now new, Enqueues t now new tr → new.id ≠ id) →
    moves id tr = [] ∧ s.queue.row? id = none
  made : ∀ row ∈ s.queue.rows, ∃ t now new, Enqueues t now new tr ∧ row.Of new
  logged : ∀ t event, asked (.handOver event) (.ok ()) ∈ System.own t tr → event ∈ s.queue.audit

variable {s : State} {tr pre : List (plane site).Event} {ev : (plane site).Event}

theorem Enqueues.snoc {t : Nat} {now : Rat} {new : NewCall} :
    Enqueues t now new (pre ++ [ev]) ↔ Enqueues t now new pre ∨
      ev.thread = t ∧ ev.op = .db (.enqueue now new) := by
  unfold Enqueues
  constructor
  · rintro ⟨v, hv⟩
    rcases System.mem_own_snoc.mp hv with hv | ⟨ht, heq⟩
    · exact Or.inl ⟨v, hv⟩
    · exact Or.inr ⟨ht, (congrArg Signature.Done.op heq).symm⟩
  · rintro (⟨v, hv⟩ | ⟨ht, hop⟩)
    · exact ⟨v, System.mem_own_snoc.mpr (Or.inl hv)⟩
    · obtain ⟨u, o, ch, before, x, after⟩ := ev
      obtain rfl : o = .db (.enqueue now new) := hop
      exact ⟨x, System.mem_own_snoc.mpr (Or.inr ⟨ht, rfl⟩)⟩

/-- A call that is put in the queue is one that nobody has put there. -/
theorem Kept.unqueued (hk : Kept s tr) {t : Nat} {now : Rat} {new : NewCall}
    (h : Prepared site (System.own t tr) now new) {u : Nat} {now' : Rat} {new' : NewCall}
    (hq : Enqueues u now' new' tr) : new'.id ≠ new.id := by
  intro heq
  obtain ⟨tenantId, r, issued, start, hpast, -⟩ := h
  have hmine : (⟨.uuid4, new.id⟩ : Calls.Done) ∈ System.own t tr := by
    rw [hpast]
    exact List.mem_cons_self
  have htheirs := hk.drawn u now' new' hq
  rw [heq] at htheirs
  obtain rfl := hk.one _ _ _ hmine htheirs
  obtain ⟨v, hv⟩ := hq
  rw [hpast] at hv
  have hop : Op.db (.enqueue now' new') ∈ [Op.uuid4, .time, .utcnow, .utcnow] :=
    List.mem_map_of_mem (f := Signature.Done.op) hv
  simp at hop

/-- What an event does to the rows. -/
theorem Kept.changes (hk : Kept ev.before pre)
    (hallowed : Allowed site (System.own ev.thread pre) ev.op)
    (hrun : step ev.op ev.choice ev.before = some (ev.answer, ev.after)) :
    ev.after.queue.Keyed ∧ ∀ id,
      ev.before.queue.row? id = ev.after.queue.row? id ∧ (∀ c, ev.op ≠ .db c) ∨
      ∃ c, ev.op = .db c ∧ Change id c (ev.before.queue.row? id) (ev.after.queue.row? id) := by
  by_cases hdb : ∃ c, ev.op = .db c
  · obtain ⟨t, o, ch, before, x, after⟩ := ev
    obtain ⟨c, rfl⟩ := hdb
    have hdo : transact c ch before = (x, after) := Option.some.inj hrun
    obtain ⟨-, hqueue | ⟨v, hqueue⟩⟩ := transact_cases hdo
    · refine ⟨?_, fun id => Or.inr ⟨c, rfl, ?_⟩⟩
      · show after.queue.Keyed
        rw [hqueue]
        exact hk.keyed
      · show Change id c (before.queue.row? id) (after.queue.row? id)
        rw [hqueue]
        exact .same _ _
    · have hnew : ∀ now new, c = .enqueue now new → before.queue.row? new.id = none := by
        rintro now new rfl
        exact (hk.untouched new.id fun u now' new' hq => hk.unqueued hallowed hq).2
      obtain ⟨hkeyed, hchange⟩ := DbCall.run_rows hk.keyed hnew hqueue
      exact ⟨hkeyed, fun id => Or.inr ⟨c, rfl, hchange id⟩⟩
  · have hqueue := step_queue hrun fun c hc => hdb ⟨c, hc⟩
    rw [hqueue]
    exact ⟨hk.keyed, fun id => Or.inl ⟨rfl, fun c hc => hdb ⟨c, hc⟩⟩⟩

/-- **One event keeps the invariant.** -/
theorem Kept.step (hk : Kept ev.before pre)
    (hallowed : Allowed site (System.own ev.thread pre) ev.op)
    (hrun : step ev.op ev.choice ev.before = some (ev.answer, ev.after)) :
    Kept ev.after (pre ++ [ev]) := by
  obtain ⟨hkeyed, hchanges⟩ := hk.changes hallowed hrun
  have hmoves : ∀ id, moves id (pre ++ [ev]) = moves id pre ++ did id ev := by
    intro id
    unfold moves
    rw [List.flatMap_append, List.flatMap_singleton]
  -- An id is drawn by this event, or it was drawn before.
  have hdraw : ∀ t id, (⟨.uuid4, id⟩ : Calls.Done) ∈ System.own t (pre ++ [ev]) →
      (⟨.uuid4, id⟩ : Calls.Done) ∈ System.own t pre ∨
      ev.thread = t ∧ id ∉ ev.before.issued ∧ id ∈ ev.after.issued := by
    intro t id hmem
    refine (System.mem_own_snoc.mp hmem).imp_right fun ⟨ht, heq⟩ => ⟨ht, ?_⟩
    obtain ⟨u, o, ch, before, x, after⟩ := ev
    cases heq
    exact step_uuid4 hrun
  have hown : ∀ {t d}, d ∈ System.own t pre → d ∈ System.own t (pre ++ [ev]) := fun h =>
    System.mem_own_snoc.mpr (Or.inl h)
  refine ⟨hkeyed, ?_, ?_, ?_, ?_, ?_, ?_, ?_⟩
  · intro t id hmem
    rcases hdraw t id hmem with hmem | ⟨-, -, hmem⟩
    · exact step_issued hrun id (hk.issued t id hmem)
    · exact hmem
  · intro t u id ht hu
    rcases hdraw t id ht with ht | ⟨ht, hfresh, -⟩
    · rcases hdraw u id hu with hu | ⟨-, hfresh, -⟩
      · exact hk.one t u id ht hu
      · exact absurd (hk.issued t id ht) hfresh
    · rcases hdraw u id hu with hu | ⟨hu, -, -⟩
      · exact absurd (hk.issued u id hu) hfresh
      · exact ht.symm.trans hu
  · intro t now new hq
    rcases Enqueues.snoc.mp hq with hq | ⟨rfl, hop⟩
    · exact hown (hk.drawn t now new hq)
    · rw [hop] at hallowed
      obtain ⟨tenantId, r, issued, start, hpast, -⟩ := hallowed
      refine hown ?_
      rw [hpast]
      exact List.mem_cons_self
  · intro id
    obtain ⟨st, hgoes, hst⟩ := hk.shown id
    rw [hmoves]
    rcases hchanges id with ⟨hsame, -⟩ | ⟨c, hop, hchange⟩
    · have hdid : did id ev = [] := by
        unfold did
        rw [← hsame, movesOf_same]
      rw [hdid, List.append_nil, ← hsame]
      exact ⟨st, hgoes, hst⟩
    · have hnew : ∀ now new, c = .enqueue now new → new.id = id → st = .absent := by
        rintro now new rfl rfl
        rw [hop] at hallowed
        have hnone := (hk.untouched new.id fun u now' new' hq => hk.unqueued hallowed hq).1
        rw [hnone] at hgoes
        exact (Option.some.inj hgoes).symm
      obtain ⟨st', hgoes', hst'⟩ := hchange.goes hst hnew
      exact ⟨st', hgoes.append hgoes', hst'⟩
  · intro id hnone
    obtain ⟨hmovesNone, hrow⟩ := hk.untouched id fun t now new hq =>
      hnone t now new (Enqueues.snoc.mpr (Or.inl hq))
    have hafter : ev.after.queue.row? id = none := by
      rcases hchanges id with ⟨hsame, -⟩ | ⟨c, hop, hchange⟩
      · rw [← hsame, hrow]
      · rw [hrow] at hchange
        cases hchange' : ev.after.queue.row? id with
        | none => rfl
        | some row =>
          rw [hchange'] at hchange
          cases hchange with
          | queued now new hid =>
            exact absurd hid (hnone _ now new (Enqueues.snoc.mpr (Or.inr ⟨rfl, hop⟩)))
    refine ⟨?_, hafter⟩
    rw [hmoves, hmovesNone]
    unfold did
    rw [hrow, hafter]
    rfl
  · intro row hmem
    have hrow := hkeyed.row? hmem
    rcases hchanges row.id with ⟨hsame, -⟩ | ⟨c, hop, hchange⟩
    · rw [← hsame] at hrow
      obtain ⟨t, now, new, hq, hof⟩ := hk.made row (Queue.row?_mem hrow).1
      exact ⟨t, now, new, Enqueues.snoc.mpr (Or.inl hq), hof⟩
    · rw [hrow] at hchange
      rcases hchange.made with ⟨now, new, rfl, hof⟩ | ⟨old, hold, hof⟩
      · exact ⟨ev.thread, now, new, Enqueues.snoc.mpr (Or.inr ⟨rfl, hop⟩), hof⟩
      · obtain ⟨t, now, new, hq, hold⟩ := hk.made old (Queue.row?_mem hold).1
        exact ⟨t, now, new, Enqueues.snoc.mpr (Or.inl hq), hof new hold⟩
  · intro t event hmem
    rcases System.mem_own_snoc.mp hmem with hmem | ⟨-, heq⟩
    · exact step_audit hrun (hk.logged t event hmem)
    · obtain ⟨u, o, ch, before, x, after⟩ := ev
      cases heq
      have hdo : transact (.handOver event) ch before = (.ok (), after) := Option.some.inj hrun
      have heffect := transact_ok hdo
      generalize after.queue = queue at heffect
      cases heffect
      exact List.mem_append_right _ List.mem_cons_self

/-! ## Runs -/

/-- What is known of an event of a run. -/
structure Happened (pre : List (plane site).Event) (ev : (plane site).Event) : Prop where
  kept : Kept ev.before pre
  allowed : Allowed site (System.own ev.thread pre) ev.op
  ran : step ev.op ev.choice ev.before = some (ev.answer, ev.after)

theorem kept_nil (hs : s.queue.rows = []) : Kept s ([] : List (plane site).Event) := by
  obtain ⟨⟨rows, globalSwitch, tenantSwitches, audit⟩, issued⟩ := s
  obtain rfl : rows = [] := hs
  refine ⟨List.nodup_nil, ?_, ?_, ?_, ?_, ?_, ?_, ?_⟩
  · exact fun t id h => absurd h List.not_mem_nil
  · exact fun t u id h => absurd h List.not_mem_nil
  · exact fun t now new ⟨v, h⟩ => absurd h List.not_mem_nil
  · exact fun id => ⟨.absent, rfl, by rintro row ⟨⟩⟩
  · exact fun id _ => ⟨rfl, rfl⟩
  · exact fun row h => absurd h List.not_mem_nil
  · exact fun t event h => absurd h List.not_mem_nil

/-- **A run keeps the invariant**, whatever is known of its steps. -/
theorem kept_of_reaches (hs : s.queue.rows = []) {cond : (plane site).recorded.Cond}
    {d : Config Calls Exn (State × List (plane site).Event)}
    (hr : (plane site).recorded.Reaches cond (Config.idle (s, [])) d) :
    Kept d.shared.1 d.shared.2 ∧ System.Each Happened d.shared.2 := by
  have hran := System.recorded_each hr
  have hallowed := System.recorded_follows (fun p hp => serves_follows hp) hr
  obtain ⟨hkept, heach⟩ := System.recorded_induction hr (kept_nil hs)
    fun pre ev post hsplit hk => hk.step (hallowed pre ev post hsplit) (hran pre ev post hsplit).2
  exact ⟨hkept, fun pre ev post hsplit =>
    ⟨heach pre ev post hsplit, hallowed pre ev post hsplit, (hran pre ev post hsplit).2⟩⟩

/-! ## What the events tell -/

theorem Happened.takes (h : Happened pre ev) {id : Nat} {w : Option String}
    (hw : .take w ∈ did id ev) : ∃ now runner limit row, ev.op = .db (.claim now runner limit) ∧
      w = some runner.id ∧ ev.before.queue.row? id = some row ∧ row.tenantId = runner.tenantId := by
  obtain ⟨-, hchanges⟩ := h.kept.changes h.allowed h.ran
  rcases hchanges id with ⟨hsame, -⟩ | ⟨c, hop, hchange⟩
  · unfold did at hw
    rw [hsame, movesOf_same] at hw
    exact absurd hw List.not_mem_nil
  · obtain ⟨now, runner, limit, row, rfl, hw, hrow, htenant⟩ := hchange.takes hw
    exact ⟨now, runner, limit, row, hop, hw, hrow, htenant⟩

theorem Happened.answers (h : Happened pre ev) {id : Nat} {a : Option Answer}
    (ha : .answer a ∈ did id ev) : ∃ reply runnerId row,
      ev.op = .db (.recordResult row.tenantId id reply runnerId) ∧ a = some reply ∧
      ev.before.queue.row? id = some row ∧ row.status = .claimed ∧
      (runnerId = none ∨ row.runnerId = runnerId) := by
  obtain ⟨-, hchanges⟩ := h.kept.changes h.allowed h.ran
  rcases hchanges id with ⟨hsame, -⟩ | ⟨c, hop, hchange⟩
  · unfold did at ha
    rw [hsame, movesOf_same] at ha
    exact absurd ha List.not_mem_nil
  · obtain ⟨reply, runnerId, row, rfl, ha, hrow, hstatus, hrunner⟩ := hchange.answers ha
    exact ⟨reply, runnerId, row, hop, ha, hrow, hstatus, hrunner⟩

/-- A transaction that has answered has taken effect. -/
theorem Happened.effect (h : Happened pre ev) {c : DbCall} {v : c.Val}
    (hdone : asked c (.ok v) = ⟨ev.op, ev.answer⟩) :
    c.run ev.choice.locked ev.before.queue = some (v, ev.after.queue) := by
  obtain ⟨kept, allowed, ran⟩ := h
  clear kept allowed
  obtain ⟨t, o, ch, before, x, after⟩ := ev
  cases hdone
  exact transact_ok (Option.some.inj ran)

/-- A claim that has answered has taken the calls that it has found. -/
theorem Happened.claimed (h : Happened pre ev) {now : Rat} {runner : RunnerIdentity} {limit : Int}
    {claimed : List Claimed}
    (hdone : asked (.claim now runner limit) (.ok claimed) = ⟨ev.op, ev.answer⟩) :
    (claimed.map (·.id)).Nodup ∧ ∀ c ∈ claimed, .take (some runner.id) ∈ did c.id ev ∧
      ∃ row ∈ ev.before.queue.rows, row.handed = c ∧ row.tenantId = runner.tenantId := by
  have heffect := h.effect hdone
  have hkeyed := h.kept.keyed
  unfold did
  generalize ev.before.queue = before at heffect hkeyed
  generalize ev.after.queue = after at heffect
  generalize (ev.choice : Choice).locked = locked at heffect
  cases heffect
  refine ⟨?_, fun c hc => ?_⟩
  · rw [List.map_map]
    exact hkeyed.waiting now runner.tenantId limit locked
  · obtain ⟨row, hwaiting, rfl⟩ := List.mem_map.mp hc
    obtain ⟨hmem, htenant, hstatus⟩ := Queue.mem_waiting hwaiting
    refine ⟨?_, row, hmem, rfl, htenant⟩
    have hrow : (before.update
        (fun row => row.id ∈ (before.waiting now runner.tenantId limit locked).map (·.id))
        fun row => row.claimedBy runner).2.row? row.id = some (row.claimedBy runner) :=
      hkeyed.row?_hit _ (fun row => row.claimedBy runner) (fun _ => rfl) hmem
        (decide_eq_true (List.mem_map_of_mem hwaiting))
    show .take (some runner.id) ∈ movesOf (before.row? row.id) (Queue.row? _ row.id)
    rw [hkeyed.row? hmem, hrow]
    simp [movesOf, hstatus, CallRow.claimedBy]

/-- A call that is withdrawn was waiting. -/
theorem Happened.withdrawn (h : Happened pre ev) {tenantId : String} {id : Nat}
    (hdone : asked (.cancel tenantId id) (.ok true) = ⟨ev.op, ev.answer⟩) :
    .withdraw ∈ did id ev := by
  have heffect := h.effect hdone
  have hkeyed := h.kept.keyed
  unfold did
  generalize ev.before.queue = before at heffect hkeyed
  generalize ev.after.queue = after at heffect
  have hpair : before.update (fun row => row.cancellable tenantId id) CallRow.withdrawn =
    (true, after) := Option.some.inj heffect
  have hany : before.rows.any (fun row => row.cancellable tenantId id) = true :=
    congrArg Prod.fst hpair
  obtain ⟨row, hmem, hhit⟩ := List.any_eq_true.mp hany
  have hrow := hkeyed.row?_hit (fun row => row.cancellable tenantId id) CallRow.withdrawn
    (fun _ => rfl) hmem hhit
  rw [hpair] at hrow
  obtain ⟨-, rfl, hstatus⟩ := of_decide_eq_true hhit
  rw [hkeyed.row? hmem, hrow]
  simp [movesOf, hstatus, CallRow.withdrawn]

/-- A call that is found to be done. -/
theorem Happened.done (h : Happened pre ev) {tenantId : String} {id : Nat} {reply : Answer}
    (hdone : asked (.answer tenantId id) (.ok (some reply)) = ⟨ev.op, ev.answer⟩) :
    ∃ row, ev.before.queue.row? id = some row ∧ row.tenantId = tenantId ∧
      row.stage = .answered row.runnerId (some reply) := by
  have heffect := congrArg Prod.fst (Option.some.inj (h.effect hdone))
  obtain ⟨row, hfound, hrow⟩ := Option.bind_eq_some_iff.mp heffect
  have hmem := List.mem_of_find?_eq_some hfound
  have hkey := List.find?_some hfound
  simp only [decide_eq_true_eq] at hkey
  obtain ⟨htenant, rfl⟩ := hkey
  by_cases hstatus : row.status = .done
  · rw [if_pos hstatus] at hrow
    refine ⟨row, h.kept.keyed.row? hmem, htenant, ?_⟩
    simp only [CallRow.stage, hstatus, hrow]
  · rw [if_neg hstatus] at hrow
    cases hrow

section Events
variable (hkept : Kept s tr) (heach : System.Each Happened tr)

include hkept in
/-- What has been done about a call is the past of a stage. -/
theorem moves_past (id : Nat) : ∃ st : CallStage, st.past = moves id tr := by
  obtain ⟨st, hgoes, -⟩ := hkept.shown id
  exact ⟨st, Stage.past_of_goes hgoes⟩

include hkept in
/-- A row tells what has been done about its call. -/
theorem moves_of_row {id : Nat} {row : CallRow} (hrow : s.queue.row? id = some row) :
    moves id tr = row.stage.past := by
  obtain ⟨st, hgoes, hst⟩ := hkept.shown id
  rw [hst row hrow]
  exact (Stage.past_of_goes hgoes).symm

include hkept in
/-- **A call is taken by one event.** -/
theorem taken_by_one (id : Nat) :
    tr.Pairwise fun e e' => ∀ w w', .take w ∈ did id e → .take w' ∉ did id e' := by
  obtain ⟨st, hpast⟩ := moves_past hkept id
  have honce := st.taken_once
  rw [hpast] at honce
  refine (List.pairwise_flatMap.mp honce).2.imp fun hpair w w' hw hw' => ?_
  exact hpair _ hw _ hw' ⟨rfl, rfl⟩

include hkept in
/-- **A call is answered by one event.** -/
theorem answered_by_one (id : Nat) :
    tr.Pairwise fun e e' => ∀ a a', .answer a ∈ did id e → .answer a' ∉ did id e' := by
  obtain ⟨st, hpast⟩ := moves_past hkept id
  have honce := st.answered_once
  rw [hpast] at honce
  refine (List.pairwise_flatMap.mp honce).2.imp fun hpair a a' ha ha' => ?_
  exact hpair _ ha _ ha' ⟨rfl, rfl⟩

/-! ## Responses -/

/-- The calls that an event hands to a runner. -/
def handed (ev : (plane site).Event) : List (RunnerIdentity × Claimed) :=
  match ev.op with
  | .respond runner calls => calls.map fun c => (runner, c)
  | _ => []

/-- The calls that have been handed out. -/
def handedOut (tr : List (plane site).Event) : List (RunnerIdentity × Claimed) := tr.flatMap handed

theorem mem_handed {x : RunnerIdentity × Claimed} (h : x ∈ handed ev) :
    ∃ calls, ev.op = .respond x.1 calls ∧ x.2 ∈ calls := by
  unfold handed at h
  split at h
  · rename_i runner calls hop
    obtain ⟨c, hc, rfl⟩ := List.mem_map.mp h
    exact ⟨calls, hop, hc⟩
  · exact absurd h List.not_mem_nil

include heach in
/-- **What a runner is given, its own request has claimed**: the claim, and what has been done
since. -/
theorem claimed_before {post : List (plane site).Event} (hsplit : tr = pre ++ ev :: post)
    {x : RunnerIdentity × Claimed} (hx : x ∈ handed ev) :
    ∃ before claim after, pre = before ++ claim :: after ∧ Happened before claim ∧
      claim.thread = ev.thread ∧ .take (some x.1.id) ∈ did x.2.id claim ∧
      (∃ row ∈ claim.before.queue.rows, row.handed = x.2 ∧ row.tenantId = x.1.tenantId) ∧
      (x.2.isWrite = true → Released site x.1 x.2 (System.own ev.thread after)) := by
  obtain ⟨calls, hop, hc⟩ := mem_handed hx
  have hallowed := (heach pre ev post hsplit).allowed
  rw [hop] at hallowed
  obtain ⟨-, before, now, limit, claimed, after, hpast, hsub, hrelease⟩ := hallowed
  obtain ⟨p, claim, q, rfl, hthread, hdone, rfl, rfl⟩ := System.own_split hpast
  have hclaim := heach p claim (q ++ ev :: post) (by simp [hsplit])
  obtain ⟨-, htaken⟩ := hclaim.claimed hdone
  obtain ⟨htake, hrow⟩ := htaken x.2 (hsub.subset hc)
  exact ⟨p, claim, q, rfl, hclaim, hthread, htake, hrow, hrelease x.2 hc⟩

include heach in
/-- The calls of one response are different ones. -/
theorem handed_nodup {post : List (plane site).Event} (hsplit : tr = pre ++ ev :: post) :
    ((handed ev).map (·.2.id)).Nodup := by
  have hhappened := heach pre ev post hsplit
  unfold handed
  split
  · rename_i runner calls hop
    have hallowed := hhappened.allowed
    rw [hop] at hallowed
    obtain ⟨-, before, now, limit, claimed, after, hpast, hsub, -⟩ := hallowed
    obtain ⟨p, claim, q, rfl, -, hdone, -, -⟩ := System.own_split hpast
    have hclaim := heach p claim (q ++ ev :: post) (by simp [hsplit])
    rw [List.map_map]
    exact (hclaim.claimed hdone).1.sublist (hsub.map _)
  · exact List.nodup_nil

include hkept in
/-- The event that takes a call is the only one. -/
theorem took_same {id : Nat} {e e' : (plane site).Event} {w w' : Option String} (he : e ∈ tr)
    (he' : e' ∈ tr) (hw : .take w ∈ did id e) (hw' : .take w' ∈ did id e') : e = e' := by
  by_contra hne
  have hsymm : Std.Symm fun a b : (plane site).Event =>
      ∀ w w', .take w ∈ did id a → .take w' ∉ did id b :=
    ⟨fun a b h w w' hb ha => h w' w ha hb⟩
  exact (taken_by_one hkept id).forall he he' hne w w' hw hw'

include hkept in
/-- The event that answers a call is the only one. -/
theorem answered_same {id : Nat} {e e' : (plane site).Event} {a a' : Option Answer} (he : e ∈ tr)
    (he' : e' ∈ tr) (ha : .answer a ∈ did id e) (ha' : .answer a' ∈ did id e') : e = e' := by
  by_contra hne
  have hsymm : Std.Symm fun x y : (plane site).Event =>
      ∀ a a', .answer a ∈ did id x → .answer a' ∉ did id y :=
    ⟨fun x y h a a' hy hx => h a' a hx hy⟩
  exact (answered_by_one hkept id).forall he he' hne a a' ha ha'

theorem mem_moves {id : Nat} {m : CallMove} {e : (plane site).Event} (he : e ∈ tr)
    (hm : m ∈ did id e) : m ∈ moves id tr := List.mem_flatMap.mpr ⟨e, he, hm⟩

include heach in
/-- A call in the queue is one that its thread has prepared. -/
theorem Enqueues.prepared {t : Nat} {now : Rat} {new : NewCall} (h : Enqueues t now new tr) :
    ∃ before after v, System.own t tr = before ++ asked (.enqueue now new) v :: after ∧
      Prepared site before now new := by
  obtain ⟨v, hv⟩ := h
  obtain ⟨before, after, hown⟩ := List.append_of_mem hv
  obtain ⟨pre, ev, post, hsplit, rfl, hdone, rfl, -⟩ := System.own_split hown
  have hallowed := (heach pre ev post hsplit).allowed
  have hop : ev.op = .db (.enqueue now new) := (congrArg Signature.Done.op hdone).symm
  rw [hop] at hallowed
  exact ⟨_, after, v, hown, hallowed⟩

include heach in
/-- A thread puts one call in the queue. -/
theorem Enqueues.one {t : Nat} {now now' : Rat} {new new' : NewCall} (h : Enqueues t now new tr)
    (h' : Enqueues t now' new' tr) : new = new' := by
  obtain ⟨before, after, v, hown, tenantId, r, issued, start, hbefore, -⟩ := h.prepared heach
  obtain ⟨before', after', v', hown', tenantId', r', issued', start', hbefore', -⟩ :=
    h'.prepared heach
  have hlength : before.length = before'.length := by
    rw [hbefore, hbefore']
    rfl
  have hrest := (List.append_inj (hown.symm.trans hown') hlength).2
  cases congrArg Signature.Done.op (List.cons.inj hrest).1
  rfl

theorem Enqueues.append {t : Nat} {now : Rat} {new : NewCall} (h : Enqueues t now new pre)
    (post : List (plane site).Event) : Enqueues t now new (pre ++ post) := by
  obtain ⟨v, hv⟩ := h
  exact ⟨v, (System.own_sublist (List.sublist_append_left _ _)).subset hv⟩

include hkept heach in
/-- A call is known by its id. -/
theorem Enqueues.same {t u : Nat} {now now' : Rat} {new new' : NewCall}
    (h : Enqueues t now new tr) (h' : Enqueues u now' new' tr) (hid : new.id = new'.id) :
    new = new' := by
  have hdrawn := hkept.drawn t now new h
  rw [hid] at hdrawn
  obtain rfl := hkept.one t u new'.id hdrawn (hkept.drawn u now' new' h')
  exact h.one heach h'

include hkept heach in
/-- The rows of an id are those of the call that a thread has queued under it. -/
theorem Enqueues.row {t : Nat} {now : Rat} {new : NewCall} (h : Enqueues t now new tr)
    {post : List (plane site).Event} (hsplit : tr = pre ++ ev :: post) {row : CallRow}
    (hrow : ev.before.queue.row? new.id = some row) :
    row.tenantId = new.tenantId ∧ row.isWrite = new.isWrite := by
  obtain ⟨hmem, hid⟩ := Queue.row?_mem hrow
  obtain ⟨u, now', new', hq, at', status, holder, given, rfl⟩ :=
    (heach pre ev post hsplit).kept.made row hmem
  have hq : Enqueues u now' new' tr := by
    rw [hsplit]
    exact hq.append _
  obtain rfl := hq.same hkept heach h hid
  exact ⟨rfl, rfl⟩

include heach in
/-- A call that a runner holds was claimed for it before. -/
theorem holder_claimed {post : List (plane site).Event} (hsplit : tr = pre ++ ev :: post) {id : Nat}
    {row : CallRow} (hrow : ev.before.queue.row? id = some row) (hstatus : row.status = .claimed) :
    ∃ before claim after, pre = before ++ claim :: after ∧ Happened before claim ∧
      .take row.runnerId ∈ did id claim ∧ ∃ now runner limit found,
        claim.op = .db (.claim now runner limit) ∧ row.runnerId = some runner.id ∧
        claim.before.queue.row? id = some found ∧ found.tenantId = runner.tenantId := by
  have hstage : row.stage = .taken row.runnerId := by simp only [CallRow.stage, hstatus]
  have hmoves : moves id pre = [.queue, .take row.runnerId] := by
    rw [moves_of_row (heach pre ev post hsplit).kept hrow, hstage]
    rfl
  obtain ⟨claim, hclaim, htake⟩ := List.mem_flatMap.mp
    (show .take row.runnerId ∈ moves id pre by simp [hmoves])
  obtain ⟨before, after, rfl⟩ := List.append_of_mem hclaim
  have hhappened := heach before claim (after ++ ev :: post) (by simp [hsplit])
  obtain ⟨now, runner, limit, found, hop, hholder, hfound, htenant⟩ := hhappened.takes htake
  exact ⟨before, claim, after, rfl, hhappened, htake, now, runner, limit, found, hop, hholder,
    hfound, htenant⟩

include hkept heach in
/-- **A call is in one response.** -/
theorem handed_apart : (handedOut tr).Pairwise fun x y => x.2.id ≠ y.2.id := by
  refine List.pairwise_flatMap.mpr ⟨fun ev hev => ?_, System.Each.pairwise ?_⟩
  · obtain ⟨pre, post, hsplit⟩ := List.append_of_mem hev
    exact List.pairwise_map.mp (handed_nodup heach hsplit)
  · intro pre ev post hsplit e he x hx y hy hid
    obtain ⟨p, q, rfl⟩ := List.append_of_mem he
    obtain ⟨b, claim, a, hb, -, hthread, htake, -⟩ := claimed_before heach hsplit hy
    have hsplit' : tr = p ++ e :: (q ++ ev :: post) := by simp [hsplit]
    obtain ⟨b', claim', a', rfl, -, hthread', htake', -⟩ := claimed_before heach hsplit' hx
    have hclaim : claim ∈ tr := by simp [hsplit, hb]
    have hclaim' : claim' ∈ tr := by simp [hsplit']
    rw [← hid] at htake
    obtain rfl := took_same hkept hclaim hclaim' htake htake'
    -- Both responses are the same request's, which gives one.
    obtain ⟨calls, hop, -⟩ := mem_handed hx
    obtain ⟨calls', hop', -⟩ := mem_handed hy
    have hallowed := (heach _ ev post hsplit).allowed
    rw [hop'] at hallowed
    have hown := System.own_mem he
    rw [← hthread', hthread] at hown
    obtain ⟨u, o, ch, before, answer, after⟩ := e
    obtain rfl : o = .respond x.1 calls := hop
    exact hallowed.1 _ _ hown

include heach in
/-- A call that no event takes is in no response. -/
theorem not_handed {id : Nat} (h : ∀ w, .take w ∉ moves id tr) :
    ∀ x ∈ handedOut tr, x.2.id ≠ id := by
  rintro x hx rfl
  obtain ⟨ev, hev, hx⟩ := List.mem_flatMap.mp hx
  obtain ⟨pre, post, hsplit⟩ := List.append_of_mem hev
  obtain ⟨b, claim, a, rfl, -, -, htake, -⟩ := claimed_before heach hsplit hx
  exact h _ (mem_moves (by simp [hsplit]) htake)

include heach in
/-- A withdrawal that is answered is a move of the call. -/
theorem withdrew {post : List (plane site).Event} (hsplit : tr = pre ++ ev :: post)
    {tenantId : String} {id : Nat}
    (h : asked (.cancel tenantId id) (.ok true) ∈ System.own ev.thread pre) :
    .withdraw ∈ moves id tr := by
  obtain ⟨before, after, hpast⟩ := List.append_of_mem h
  obtain ⟨p, e, q, rfl, -, hdone, -, -⟩ := System.own_split hpast
  exact mem_moves (by simp [hsplit]) ((heach p e (q ++ ev :: post) (by simp [hsplit])).withdrawn hdone)

include hkept in
/-- A call that is withdrawn is taken by none, before or after. -/
theorem not_taken {id : Nat} (h : .withdraw ∈ moves id tr) (w : Option String) :
    .take w ∉ moves id tr := by
  obtain ⟨st, hpast⟩ := moves_past hkept id
  rw [← hpast] at h ⊢
  intro htaken
  cases Stage.not_taken h htaken

include heach in
/-- An answer that a thread has read was recorded before. -/
theorem answer_recorded {post : List (plane site).Event} (hsplit : tr = pre ++ ev :: post)
    {tenantId : String} {id : Nat} {reply : Answer}
    (h : asked (.answer tenantId id) (.ok (some reply)) ∈ System.own ev.thread pre) :
    ∃ before e after, pre = before ++ e :: after ∧ .answer (some reply) ∈ did id e := by
  obtain ⟨done, rest, hpast⟩ := List.append_of_mem h
  obtain ⟨p, look, q, rfl, -, hdone, -, -⟩ := System.own_split hpast
  have hlook := heach p look (q ++ ev :: post) (by simp [hsplit])
  obtain ⟨row, hrow, -, hstage⟩ := hlook.done hdone
  have hmoves : moves id p = [.queue, .take row.runnerId, .answer (some reply)] := by
    rw [moves_of_row hlook.kept hrow, hstage]
    rfl
  obtain ⟨e, he, hanswers⟩ := List.mem_flatMap.mp
    (show .answer (some reply) ∈ moves id p by simp [hmoves])
  obtain ⟨before, after, rfl⟩ := List.append_of_mem he
  exact ⟨before, e, after ++ look :: q, by simp, hanswers⟩

end Events

/-! ## A write that is handed out, and one that is withdrawn -/

def sampleWrite : Capability where
  id := "mail.send"
  kind := .write
  tier := some .t1

/-- A deployment with one write, whose numbers are all printed as the one digit. -/
def sampleSite : Site where
  tools :=
    { numbers := ⟨fun _ => True, fun _ => "1", fun _ => some (.int 1)⟩
      builtins := ⟨fun _ => "", fun _ => none, fun _ => false⟩
      sha256 := fun _ => "", hmac := fun _ _ => "", redact := fun text => text }
  sign text := text
  uuidText _ := "call"
  registry := [⟨"mail", .operations, [sampleWrite]⟩]
  timeoutSeconds _ := 10
  refusals _ _ _ := []

/-- A step of tenant `a` sends a mail, with a grant. -/
def sampleCaller : Prog Unit :=
  (invoke sampleSite ⟨"a", [("mail", ⟨"mail", .obj [], []⟩)]⟩ "mail.send" (.obj [])
    (some ⟨"a", "run", "step", "sop_step"⟩) (some (.obj [])) false 5).attempt.bind fun r =>
      Program.op (E := Calls) (.ended r)

def sampleRunner : RunnerIdentity := ⟨"a", "runner", "site-1", []⟩

def sampleReply : Json := .obj [("success", .bool true)]

/-- A caller, a runner that asks for calls, and one that returns a result for the first id. -/
def sampleMoves (steps : List (Nat × Choice)) : List (plane sampleSite).recorded.Move :=
  .start sampleCaller :: .start (runnerClaim sampleSite sampleRunner 1 0 .null 5) ::
    .start ((runnerResult sampleRunner 0 "ok" sampleReply).bind fun _ => .ret ()) ::
      steps.map fun x => .op x.1 x.2

theorem starts_sampleMoves (steps : List (Nat × Choice)) :
    (plane sampleSite).recorded.Starts (sampleMoves steps) :=
  .start (Serves.invoke _ _ _ _ _ _ _)
    (.start (Serves.claim _ _ _ _ _) (.start (Serves.result _ _ _ _) .each))

def turns (t n : Nat) : List (Nat × Choice) := List.replicate n (t, {})

/-- The call is queued, handed out and answered, and the caller is given the result. -/
def answeredSteps : List (Nat × Choice) :=
  turns 0 6 ++ turns 1 7 ++ turns 2 1 ++ turns 0 3

/-- The time of the caller is up before a runner asks. -/
def lateSteps : List (Nat × Choice) :=
  turns 0 7 ++ [(0, { reading := 100 })] ++ turns 0 3 ++ turns 1 5

/-- The event tells a caller that its call has succeeded. -/
def succeeds (ev : (plane sampleSite).Event) : Option Runner.Result :=
  match ev.op with
  | .ended (.ok result) => some result
  | _ => none

def tellsWithdrawn (ev : (plane sampleSite).Event) : Bool :=
  match ev.op with
  | .ended (.error e) => e = withdrawn
  | _ => false

/-- A run of the sample, with what is to be seen in it. -/
theorem sample_run {α : Type} (see : List (plane sampleSite).Event → α)
    {steps : List (Nat × Choice)} {seen : α}
    (h : ((plane sampleSite).recorded.play (Config.idle ({}, [])) (sampleMoves steps)).map
      (fun d => see d.shared.2) = some seen) :
    ∃ d : Config Calls Exn (State × List (plane sampleSite).Event), see d.shared.2 = seen ∧
      (plane sampleSite).recorded.Reaches (plane sampleSite).recorded.anyStep
        (Config.idle ({}, [])) d := by
  obtain ⟨d, hd, hseen⟩ := Option.map_eq_some_iff.mp h
  exact ⟨d, hseen, System.play_reaches _ (starts_sampleMoves steps) hd⟩

theorem answered_run : ∃ d : Config Calls Exn (State × List (plane sampleSite).Event),
    ((handedOut d.shared.2).map (fun x => (x.1.id, x.2.id, x.2.isWrite)),
      d.shared.2.any fun ev => (succeeds ev).isSome) = ([("runner", 0, true)], true) ∧
    (plane sampleSite).recorded.Reaches (plane sampleSite).recorded.anyStep
      (Config.idle ({}, [])) d := by
  have hplay : ((plane sampleSite).recorded.play (Config.idle ({}, []))
      (sampleMoves answeredSteps)).map (fun d =>
        ((handedOut d.shared.2).map (fun x => (x.1.id, x.2.id, x.2.isWrite)),
          d.shared.2.any fun ev => (succeeds ev).isSome)) = some ([("runner", 0, true)], true) := by
    -- The hand-over reads an envelope, which is quicker by its bytes.
    unfold sampleMoves
    delta runnerClaim offer offer._f handOut handOutEach handOutEach._f handOutOne handOver
    rw [Json.loads_eq_loadsAscii]
    decide +kernel
  exact sample_run (fun tr => ((handedOut tr).map (fun x => (x.1.id, x.2.id, x.2.isWrite)),
    tr.any fun ev => (succeeds ev).isSome)) hplay

/-! ## Every run -/

section Runs
variable {d : Config Calls Exn (State × List (plane site).Event)}

/-- **A call is handed out at most once**, and what a runner is given is what the control plane has
made and signed for a call of the runner's own tenant. -/
theorem handed_out_once (hs : s.queue.rows = [])
    (hr : (plane site).recorded.Reaches (plane site).recorded.anyStep (Config.idle (s, [])) d) :
    (handedOut d.shared.2).Pairwise (fun x y => x.2.id ≠ y.2.id) ∧
      ∀ x ∈ handedOut d.shared.2, ∃ t r issued start now,
        Enqueues t now (newCall site x.2.id x.1.tenantId r issued start) d.shared.2 ∧
        x.2 = ((newCall site x.2.id x.1.tenantId r issued start).row now).handed := by
  obtain ⟨hkept, heach⟩ := kept_of_reaches hs hr
  refine ⟨handed_apart hkept heach, fun x hx => ?_⟩
  obtain ⟨ev, hev, hx⟩ := List.mem_flatMap.mp hx
  obtain ⟨pre, post, hsplit⟩ := List.append_of_mem hev
  obtain ⟨b, claim, a, rfl, hclaim, -, -, ⟨row, hrow, hhanded, htenant⟩, -⟩ :=
    claimed_before heach hsplit hx
  obtain ⟨t, now, new, hq, at', status, runnerId, answer, rfl⟩ := hclaim.kept.made row hrow
  have hq : Enqueues t now new d.shared.2 := by
    rw [hsplit, List.append_assoc]
    exact hq.append _
  obtain ⟨-, -, -, -, tenantId, r, issued, start, -, hnew⟩ := hq.prepared heach
  have hid : new.id = x.2.id := congrArg Claimed.id hhanded
  have htenant : tenantId = x.1.tenantId := by
    rw [← htenant]
    exact (congrArg NewCall.tenantId hnew).symm
  rw [hid, htenant] at hnew
  refine ⟨t, r, issued, start, now, hnew ▸ hq, ?_⟩
  rw [← hnew]
  exact hhanded.symm

theorem handed_out_once_sample : ∃ tr : List (plane sampleSite).Event,
    (handedOut tr).map (fun x => (x.1.id, x.2.id, x.2.isWrite)) = [("runner", 0, true)] ∧
    (handedOut tr).Pairwise (fun x y => x.2.id ≠ y.2.id) ∧
      ∀ x ∈ handedOut tr, ∃ t r issued start now,
        Enqueues t now (newCall sampleSite x.2.id x.1.tenantId r issued start) tr ∧
        x.2 = ((newCall sampleSite x.2.id x.1.tenantId r issued start).row now).handed := by
  obtain ⟨d, hseen, hr⟩ := answered_run
  exact ⟨d.shared.2, congrArg Prod.fst hseen, handed_out_once rfl hr⟩

/-- **A call is not made that its caller was told is withdrawn**: neither before nor after. -/
theorem withdrawn_not_handed (hs : s.queue.rows = [])
    (hr : (plane site).recorded.Reaches (plane site).recorded.anyStep (Config.idle (s, [])) d)
    (hev : ev ∈ d.shared.2) (hop : ev.op = .ended (.error withdrawn)) :
    (∃ now new, Enqueues ev.thread now new d.shared.2) ∧
      ∀ now new, Enqueues ev.thread now new d.shared.2 →
        ∀ x ∈ handedOut d.shared.2, x.2.id ≠ new.id := by
  obtain ⟨hkept, heach⟩ := kept_of_reaches hs hr
  obtain ⟨pre, post, hsplit⟩ := List.append_of_mem hev
  have hallowed := (heach pre ev post hsplit).allowed
  rw [hop] at hallowed
  obtain ⟨now, new, hplaced, hcancel⟩ := hallowed.withdrawal rfl
  have hq : Enqueues ev.thread now new d.shared.2 := by
    rw [hsplit]
    exact Enqueues.append ⟨_, hplaced⟩ _
  refine ⟨⟨now, new, hq⟩, fun now' new' hq' => ?_⟩
  obtain rfl := hq.one heach hq'
  exact not_handed heach (not_taken hkept (withdrew heach hsplit hcancel))

theorem withdrawn_not_handed_sample : ∃ tr : List (plane sampleSite).Event,
    ∃ ev ∈ tr, tellsWithdrawn ev = true ∧
      (∃ now new, Enqueues ev.thread now new tr) ∧
      ∀ now new, Enqueues ev.thread now new tr → ∀ x ∈ handedOut tr, x.2.id ≠ new.id := by
  have hplay : ((plane sampleSite).recorded.play (Config.idle ({}, [])) (sampleMoves lateSteps)).map
      (fun d => d.shared.2.any tellsWithdrawn) = some true := by decide +kernel
  obtain ⟨d, hseen, hr⟩ := sample_run (fun tr => tr.any tellsWithdrawn) hplay
  obtain ⟨ev, hev, htells⟩ := List.any_eq_true.mp hseen
  have hop : ev.op = .ended (.error withdrawn) := by
    unfold tellsWithdrawn at htells
    split at htells
    · rename_i hop
      rw [hop, of_decide_eq_true htells]
    · cases htells
  exact ⟨d.shared.2, ev, hev, htells, withdrawn_not_handed rfl hr hev hop⟩

/-- **A write is handed out only when it may be**: after the claim that took it there was a moment
at which neither kill switch was on, and the audit log already says which runner is given it. -/
theorem write_released (hs : s.queue.rows = [])
    (hr : (plane site).recorded.Reaches (plane site).recorded.anyStep (Config.idle (s, [])) d)
    {post : List (plane site).Event} (hsplit : d.shared.2 = pre ++ ev :: post)
    {x : RunnerIdentity × Claimed} (hx : x ∈ handed ev) (hwrite : x.2.isWrite = true) :
    (∃ before claim after, pre = before ++ claim :: after ∧
      .take (some x.1.id) ∈ did x.2.id claim ∧ ∃ e ∈ after,
        e.before.queue.globalSwitch = false ∧ x.1.tenantId ∉ e.before.queue.tenantSwitches) ∧
      ∃ event, handOver site x.1 x.2 = some event ∧ event ∈ ev.before.queue.audit := by
  obtain ⟨-, heach⟩ := kept_of_reaches hs hr
  obtain ⟨b, claim, a, rfl, -, -, htake, -, hreleased⟩ := claimed_before heach hsplit hx
  obtain ⟨-, hswitches, event, hevent, hlogged⟩ := hreleased hwrite
  refine ⟨⟨b, claim, a, rfl, htake, ?_⟩, event, hevent, ?_⟩
  · obtain ⟨before, after, hpast⟩ := List.append_of_mem hswitches
    obtain ⟨p, e, q, rfl, -, hdone, -, -⟩ := System.own_split hpast
    have he := heach (b ++ claim :: p) e (q ++ ev :: post) (by simp [hsplit])
    have hread := congrArg Prod.fst (Option.some.inj (he.effect hdone))
    obtain ⟨hglobal, htenant⟩ := List.append_eq_nil_iff.mp hread
    refine ⟨e, by simp, ?_, ?_⟩
    · by_contra hon
      rw [Bool.not_eq_false] at hon
      rw [hon, if_pos rfl] at hglobal
      cases hglobal
    · intro hon
      rw [if_pos hon] at htenant
      cases htenant
  · refine (heach _ ev post hsplit).kept.logged ev.thread event ?_
    refine (System.own_sublist ?_).subset hlogged
    exact (List.sublist_cons_self _ _).trans (List.sublist_append_right _ _)

theorem write_released_sample : ∃ (pre : List (plane sampleSite).Event)
    (ev : (plane sampleSite).Event) (x : RunnerIdentity × Claimed), x ∈ handed ev ∧
    x.2.isWrite = true ∧
    (∃ before claim after, pre = before ++ claim :: after ∧
      .take (some x.1.id) ∈ did x.2.id claim ∧ ∃ e ∈ after,
        e.before.queue.globalSwitch = false ∧ x.1.tenantId ∉ e.before.queue.tenantSwitches) ∧
      ∃ event, handOver sampleSite x.1 x.2 = some event ∧ event ∈ ev.before.queue.audit := by
  obtain ⟨d, hseen, hr⟩ := answered_run
  have hlist : (handedOut d.shared.2).map (fun x => (x.1.id, x.2.id, x.2.isWrite)) =
      [("runner", 0, true)] := congrArg Prod.fst hseen
  have hmem : ("runner", 0, true) ∈
      (handedOut d.shared.2).map fun x => (x.1.id, x.2.id, x.2.isWrite) := by
    rw [hlist]
    exact List.mem_cons_self
  obtain ⟨x, hx, heq⟩ := List.mem_map.mp hmem
  have hwrite : x.2.isWrite = true := congrArg (fun p => p.2.2) heq
  obtain ⟨ev, hev, hx⟩ := List.mem_flatMap.mp hx
  obtain ⟨pre, post, hsplit⟩ := List.append_of_mem hev
  exact ⟨pre, ev, x, hx, hwrite, write_released rfl hr hsplit hx hwrite⟩

/-- **The caller is given what the runner that took its call has returned**: the call was taken for
a runner of its tenant, that runner returned the outcome and the result under its own name, they
were recorded as the answer of the call, and no other answer was, before or after. -/
theorem result_of_its_runner (hs : s.queue.rows = [])
    (hr : (plane site).recorded.Reaches (plane site).recorded.anyStep (Config.idle (s, [])) d)
    {post : List (plane site).Event} (hsplit : d.shared.2 = pre ++ ev :: post)
    {result : Runner.Result} (hop : ev.op = .ended (.ok result)) :
    ∃ now new reply runner before e after, Enqueues ev.thread now new pre ∧
      pre = before ++ e :: after ∧
      (∃ claim ∈ before, ∃ now limit, claim.op = .db (.claim now runner limit) ∧
        .take (some runner.id) ∈ did new.id claim) ∧ runner.tenantId = new.tenantId ∧
      e.op = .db (.recordResult new.tenantId new.id reply (some runner.id)) ∧
      .answer (some reply) ∈ did new.id e ∧
      (∀ e' ∈ d.shared.2, ∀ a, .answer a ∈ did new.id e' → e' = e) ∧
      resultOf site reply = .ok result := by
  obtain ⟨hkept, heach⟩ := kept_of_reaches hs hr
  have hallowed := (heach pre ev post hsplit).allowed
  rw [hop] at hallowed
  obtain ⟨now, new, reply, hplaced, hanswer, hresult⟩ := hallowed.result result rfl
  obtain ⟨before, e, after, rfl, hanswers⟩ := answer_recorded heach hsplit hanswer
  have hcutE : d.shared.2 = before ++ e :: (after ++ ev :: post) := by simp [hsplit]
  have hevent := heach before e _ hcutE
  obtain ⟨reply', runnerId, old, hrecord, ⟨⟩, hold, hstatus, hrunner⟩ := hevent.answers hanswers
  have hq : Enqueues ev.thread now new d.shared.2 := by
    rw [hsplit]
    exact Enqueues.append ⟨_, hplaced⟩ _
  have htenantOld := (hq.row hkept heach hcutE hold).1
  obtain ⟨b, claim, a, rfl, -, htake, now', runner, limit, found, hopC, hholder, hfound, htenantC⟩ :=
    holder_claimed heach hcutE hold hstatus
  have hcutC : d.shared.2 = b ++ claim :: (a ++ e :: (after ++ ev :: post)) := by
    simp [hsplit]
  have htenantFound := (hq.row hkept heach hcutC hfound).1
  -- A result that names no runner is a refusal.
  have hnamed : runnerId = some runner.id := by
    rcases hrunner with rfl | hrunner
    · have hrefusal := hevent.allowed
      rw [hrecord] at hrefusal
      exact absurd hresult (resultOf_notAuthorized hrefusal.1 result)
    · rw [← hrunner, hholder]
  refine ⟨now, new, reply, runner, b ++ claim :: a, e, after, ⟨_, hplaced⟩, by simp,
    ⟨claim, by simp, now', limit, hopC, hholder ▸ htake⟩, htenantC.symm.trans htenantFound, ?_,
    hanswers, fun e' he' a' ha' => ?_, hresult⟩
  · rw [hrecord, htenantOld, hnamed]
  · exact answered_same hkept he' (by simp [hsplit]) ha' hanswers

theorem result_of_its_runner_sample : ∃ (tr pre : List (plane sampleSite).Event)
    (ev : (plane sampleSite).Event) (result : Runner.Result), succeeds ev = some result ∧
    ∃ now new reply runner before e after, Enqueues ev.thread now new pre ∧
      pre = before ++ e :: after ∧
      (∃ claim ∈ before, ∃ now limit, claim.op = .db (.claim now runner limit) ∧
        .take (some runner.id) ∈ did new.id claim) ∧ runner.tenantId = new.tenantId ∧
      e.op = .db (.recordResult new.tenantId new.id reply (some runner.id)) ∧
      .answer (some reply) ∈ did new.id e ∧ (∀ e' ∈ tr, ∀ a, .answer a ∈ did new.id e' → e' = e) ∧
      resultOf sampleSite reply = .ok result := by
  obtain ⟨d, hseen, hr⟩ := answered_run
  obtain ⟨ev, hev, hsome⟩ := List.any_eq_true.mp (congrArg Prod.snd hseen)
  obtain ⟨result, hresult⟩ := Option.isSome_iff_exists.mp hsome
  have hop : ev.op = .ended (.ok result) := by
    unfold succeeds at hresult
    split at hresult
    · rename_i hop
      cases hresult
      exact hop
    · cases hresult
  obtain ⟨pre, post, hsplit⟩ := List.append_of_mem hev
  exact ⟨d.shared.2, pre, ev, result, hresult, result_of_its_runner rfl hr hsplit hop⟩

end Runs

end Dispatch
end L1Agent
