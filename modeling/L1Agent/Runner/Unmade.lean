import L1Agent.Runner.Handed

/-! # A call that its caller has given up

The queue keeps its protocol in every run: a call is in one response at most, and the one answer
that is recorded comes from the runner that holds the call (`answered_by_holder`).

What the caller makes of its call is another matter.  `call` raises an exception that leaves the
outcome open, or one that its caller takes for a failure and rolls the write back (`raises_call`);
then the write must not be made.  It is not when the call was withdrawn, but when the database
fails under `call` itself, the exception leaves the call where it is.

`Op.Spares` says which failures do no harm.  `queue_protocol` is for the runs whose failures are of
this kind, and is put together from what has failed: the transaction that queues the call
(`not_taken_enqueue`) or a later one about it (`not_taken_ask`).  `taken_after_failure` is a run with
another failure, whose write is made after all.
-/
namespace L1Agent
namespace Dispatch
open Interleaving Handover
open Access (RunnerIdentity)

/-! ## Failures -/

/-- The call is no write, or it is withdrawn. -/
def CallRow.Harmless (row : CallRow) : Prop := row.isWrite = false ∨ row.status = .cancelled

instance (row : CallRow) : Decidable row.Harmless := inferInstanceAs (Decidable (_ ∨ _))

/-- A transaction of a caller that fails leaves no write that a runner has or may take. -/
def DbCall.Spares (c : DbCall) (ch : Choice) (q : Queue) : Prop :=
  match c with
  | .enqueue _ new => new.isWrite = true → ch.landed = false
  | .answer _ id | .remove _ id => ∃ row ∈ q.row? id, row.Harmless
  | .cancel _ id => ∃ row ∈ q.row? id, row.Harmless ∨ row.status = .queued ∧ ch.landed = true
  | _ => True

instance (c : DbCall) (ch : Choice) (q : Queue) : Decidable (c.Spares ch q) := by
  cases c <;> unfold DbCall.Spares <;> dsimp only <;> infer_instance

/-- **What fails does no harm**: no exception of the database, or of the wait, ends the call of a
write that a runner has or may take. -/
def Op.Spares (o : Op) (ch : Choice) (q : Queue) : Prop :=
  match o with
  | .db c => ch.fault = some .crash → c.Spares ch q
  | .sleep _ => ch.fault ≠ some .crash
  | _ => True

instance (o : Op) (ch : Choice) (q : Queue) : Decidable (o.Spares ch q) := by
  cases o <;> unfold Op.Spares <;> dsimp only <;> infer_instance

variable {site : Site} {s : State} {tr pre : List (plane site).Event} {ev : (plane site).Event}

theorem transact_crash {c : DbCall} {ch : Choice} {s' : State}
    (h : transact c ch s = (.error .crash, s')) : c.run ch.locked s.queue = none ∧ s' = s ∨
      ∃ v queue, c.run ch.locked s.queue = some (v, queue) ∧ ch.fault = some .crash ∧
        s'.queue = if ch.landed = true then queue else s.queue := by
  unfold transact at h
  split at h
  · rename_i hrun
    exact .inl ⟨hrun, (congrArg Prod.snd h).symm⟩
  · rename_i v queue hrun
    split at h
    · cases h
    · rename_i e hfault
      have hsame : e = .crash := by
        cases congrArg Prod.fst h
        rfl
      subst hsame
      refine .inr ⟨v, queue, hrun, hfault, ?_⟩
      obtain rfl := (congrArg Prod.snd h).symm
      dsimp only
      split <;> rfl

/-- A transaction that has failed. -/
theorem Happened.failed (h : Happened pre ev) {c : DbCall}
    (hdone : asked c (.error .crash) = ⟨ev.op, ev.answer⟩) :
    ev.op = .db c ∧ (c.run ev.choice.locked ev.before.queue = none ∧ ev.after = ev.before ∨
      ∃ v queue, c.run ev.choice.locked ev.before.queue = some (v, queue) ∧
        ev.choice.fault = some .crash ∧
        ev.after.queue = if ev.choice.landed = true then queue else ev.before.queue) := by
  obtain ⟨kept, allowed, ran⟩ := h
  clear kept allowed
  obtain ⟨t, o, ch, before, x, after⟩ := ev
  cases hdone
  exact ⟨rfl, transact_crash (Option.some.inj ran)⟩

/-- A cancellation takes effect, though its answer is lost. -/
theorem Happened.cancels (h : Happened pre ev) {tenantId : String} {id : Nat}
    (hdone : asked (.cancel tenantId id) (.error .crash) = ⟨ev.op, ev.answer⟩)
    (hlanded : ev.choice.landed = true) {row : CallRow}
    (hrow : ev.before.queue.row? id = some row) (htenant : row.tenantId = tenantId)
    (hstatus : row.status = .queued) : .withdraw ∈ did id ev := by
  obtain ⟨-, ⟨⟨⟩, -⟩ | ⟨v, queue, hrun, -, hafter⟩⟩ := h.failed hdone
  rw [if_pos hlanded] at hafter
  obtain rfl : (ev.before.queue.update (fun row' => row'.cancellable tenantId id)
      CallRow.withdrawn).2 = queue := congrArg Prod.snd (Option.some.inj hrun)
  obtain ⟨hmem, rfl⟩ := Queue.row?_mem hrow
  have hhit : row.cancellable tenantId row.id = true := decide_eq_true ⟨htenant, rfl, hstatus⟩
  have hnew := h.kept.keyed.row?_hit (fun row' => row'.cancellable tenantId row.id)
    CallRow.withdrawn (fun _ => rfl) hmem hhit
  unfold did
  rw [hrow, hafter, hnew]
  simp [movesOf, hstatus, CallRow.withdrawn]

/-! ## Answers -/

/-- An event records an answer of the call. -/
def Records (id : Nat) (reply : Answer) (ev : (plane site).Event) : Prop :=
  ∃ row row', ev.before.queue.row? id = some row ∧ ev.after.queue.row? id = some row' ∧
    row ≠ row' ∧ row'.status = .done ∧ row'.answer = some reply

/-- To record an answer is a move of the call. -/
theorem Happened.recorded (h : Happened pre ev) {id : Nat} {reply : Answer}
    (hrecords : Records id reply ev) : .answer (some reply) ∈ did id ev := by
  obtain ⟨row, row', hrow, hrow', hne, hdone, hreply⟩ := hrecords
  obtain ⟨-, hchanges⟩ := h.kept.changes h.allowed h.ran
  unfold did
  rcases hchanges id with ⟨hsame, -⟩ | ⟨c, -, hchange⟩
  · rw [hrow, hrow'] at hsame
    exact absurd (Option.some.inj hsame) hne
  · rw [hrow, hrow'] at hchange ⊢
    cases hchange with
    | same => exact absurd rfl hne
    | claimed => cases hdone
    | answered tenantId answer runnerId _ hstatus =>
      cases hreply
      simp [movesOf, hstatus, CallRow.answeredWith]
    | cancelled => cases hdone

/-- The answer comes from the runner that has claimed the call, or the call is refused to that
runner in the request that has claimed it. -/
def FromHolder (pre : List (plane site).Event) (ev : (plane site).Event) (id : Nat)
    (reply : Answer) : Prop :=
  ∃ claim ∈ pre, ∃ now runner limit, claim.op = .db (.claim now runner limit) ∧
    .take (some runner.id) ∈ did id claim ∧
    (ev.op = .db (.recordResult runner.tenantId id reply (some runner.id)) ∨
      ev.op = .db (.recordResult runner.tenantId id reply none) ∧
        reply.outcome = "not_authorized" ∧ claim.thread = ev.thread)

section Events
variable (hkept : Kept s tr) (heach : System.Each Happened tr)

include hkept heach in
/-- **A recorded answer comes from the holder of the call.** -/
theorem answered_by_holder {post : List (plane site).Event} (hsplit : tr = pre ++ ev :: post)
    {id : Nat} {reply : Answer} (hanswers : .answer (some reply) ∈ did id ev) :
    FromHolder pre ev id reply := by
  have hevent := heach pre ev post hsplit
  obtain ⟨reply, runnerId, row, hop, ⟨⟩, hrow, hstatus, hrunner⟩ := hevent.answers hanswers
  obtain ⟨before, claim, after, rfl, hclaimed, htake, now, runner, limit, found, hopC, hholder,
    hfound, htenantC⟩ := holder_claimed heach hsplit hrow hstatus
  have hcut : tr = before ++ claim :: (after ++ ev :: post) := by simp [hsplit]
  -- Both rows are those of the one call that was queued under the id.
  have htenant : row.tenantId = runner.tenantId := by
    obtain ⟨u, now', new, hq, hof⟩ := hevent.kept.made row (Queue.row?_mem hrow).1
    obtain ⟨at', status, holder, given, hmade⟩ := hof
    have hid : id = new.id := by
      rw [← (Queue.row?_mem hrow).2, hmade]
      rfl
    subst hid
    have hq : Enqueues u now' new tr := by
      rw [hsplit]
      exact hq.append _
    rw [(hq.row hkept heach hsplit hrow).1, ← (hq.row hkept heach hcut hfound).1, htenantC]
  rw [htenant] at hop
  rw [hholder] at htake hrunner
  refine ⟨claim, by simp, now, runner, limit, hopC, htake, ?_⟩
  rcases hrunner with rfl | hrunner
  · -- The control plane refuses a call in the request that holds it.
    have hrefusal := hevent.allowed
    rw [hop] at hrefusal
    obtain ⟨houtcome, -, runner', c, ⟨now', limit', claimed, hheld, hc⟩, -, rfl⟩ := hrefusal
    obtain ⟨done, rest, hpast⟩ := List.append_of_mem hheld
    obtain ⟨p, claim', q, hsplit', hthread, hdone, -, -⟩ := System.own_split hpast
    have hcut' : tr = p ++ claim' :: (q ++ ev :: post) := by
      rw [hsplit, hsplit']
      simp
    obtain ⟨htake', -⟩ := ((heach p claim' _ hcut').claimed hdone).2 c hc
    obtain rfl := took_same hkept (by simp [hcut]) (by simp [hcut']) htake htake'
    exact .inr ⟨hop, houtcome, hthread⟩
  · obtain rfl := hrunner
    exact .inl hop

/-! ## What has failed -/

/-- A call is queued by the transaction that puts it there. -/
theorem Happened.queues (h : Happened pre ev) {id : Nat} (hqueue : .queue ∈ did id ev) :
    ∃ now new, ev.op = .db (.enqueue now new) ∧ new.id = id := by
  obtain ⟨-, hchanges⟩ := h.kept.changes h.allowed h.ran
  unfold did at hqueue
  rcases hchanges id with ⟨hsame, -⟩ | ⟨c, hop, hchange⟩
  · rw [hsame, movesOf_same] at hqueue
    exact absurd hqueue List.not_mem_nil
  · cases hchange' : ev.before.queue.row? id with
    | none =>
      rw [hchange'] at hchange hqueue
      generalize ev.after.queue.row? id = after at hchange hqueue
      cases hchange with
      | same => exact absurd hqueue List.not_mem_nil
      | queued now new hid => exact ⟨now, new, hop, hid⟩
    | some row =>
      rw [hchange'] at hqueue
      cases hrow : ev.after.queue.row? id with
      | none =>
        rw [hrow] at hqueue
        cases hstatus : row.status <;> simp [movesOf, hstatus] at hqueue
      | some row' =>
        rw [hrow] at hqueue
        cases hstatus : row.status <;> cases hstatus' : row'.status <;>
          simp [movesOf, hstatus, hstatus'] at hqueue

include heach in
/-- A call is put in the queue, or is not, by one event. -/
theorem queued_by_one : tr.Pairwise fun e e' => ∀ now new now' new',
    e.op = .db (.enqueue now new) → e'.op = .db (.enqueue now' new') → new.id ≠ new'.id := by
  refine System.Each.pairwise ?_
  intro pre ev post hsplit e he now new now' new' hop hop'
  have hevent := heach pre ev post hsplit
  have hprepared := hevent.allowed
  rw [hop'] at hprepared
  have hq : Enqueues e.thread now new pre := by
    obtain ⟨u, o, ch, before, x, after⟩ := e
    obtain rfl : o = .db (.enqueue now new) := hop
    exact ⟨x, System.own_mem he⟩
  exact hevent.kept.unqueued hprepared hq

include hkept in
/-- A call that no event queues is taken by none. -/
theorem not_taken_unqueued {id : Nat} (h : .queue ∉ moves id tr) (w : Option String) :
    .take w ∉ moves id tr := by
  obtain ⟨st, hpast⟩ := moves_past hkept id
  rw [← hpast] at h ⊢
  cases st <;> simp [Stage.past] at h ⊢

/-- Every failure does no harm. -/
abbrev Spared (tr : List (plane site).Event) : Prop :=
  System.Each (fun _ ev => Op.Spares ev.op ev.choice ev.before.queue) tr

variable (hspared : Spared tr)

include hkept heach hspared in
/-- A write that could not be queued is taken by none. -/
theorem not_taken_enqueue {post : List (plane site).Event} (hsplit : tr = pre ++ ev :: post)
    {now : Rat} {new : NewCall} (hwrite : new.isWrite = true)
    (hdone : asked (.enqueue now new) (.error .crash) = ⟨ev.op, ev.answer⟩) (w : Option String) :
    .take w ∉ moves new.id tr := by
  obtain ⟨hop, heffect⟩ := (heach pre ev post hsplit).failed hdone
  have hqueue : ev.after.queue = ev.before.queue := by
    rcases heffect with ⟨-, hsame⟩ | ⟨v, queue, -, hfault, hafter⟩
    · rw [hsame]
    · have hspares : Op.Spares ev.op ev.choice ev.before.queue := hspared pre ev post hsplit
      rw [hop] at hspares
      have hlanded : ev.choice.landed = false := hspares hfault hwrite
      rw [hafter, hlanded]
      rfl
  refine not_taken_unqueued hkept (fun hmem => ?_) w
  obtain ⟨e, he, hqueued⟩ := List.mem_flatMap.mp hmem
  -- Only this event could have queued the call, and it has left the queue as it was.
  obtain ⟨before, after, hcut⟩ := List.append_of_mem he
  obtain ⟨now', new', hop', hid⟩ := (heach before e after hcut).queues hqueued
  by_cases hsame : e = ev
  · subst hsame
    unfold did at hqueued
    rw [hqueue, movesOf_same] at hqueued
    exact List.not_mem_nil hqueued
  · have hsymm : Std.Symm fun a b : (plane site).Event => ∀ now new now' new',
        a.op = .db (.enqueue now new) → b.op = .db (.enqueue now' new') → new.id ≠ new'.id :=
      ⟨fun a b h now new now' new' hb ha heq => h now' new' now new ha hb heq.symm⟩
    exact (queued_by_one heach).forall he (by simp [hsplit]) hsame _ _ _ _ hop' hop hid

include hkept heach hspared in
/-- A write about which a transaction has failed is taken by none. -/
theorem not_taken_ask {post : List (plane site).Event} (hsplit : tr = pre ++ ev :: post) {t : Nat}
    {now : Rat} {new : NewCall} (hq : Enqueues t now new tr) (hwrite : new.isWrite = true)
    {c : DbCall} (hc : c ∈ new.asks) (hdone : asked c (.error .crash) = ⟨ev.op, ev.answer⟩)
    (w : Option String) : .take w ∉ moves new.id tr := by
  have hevent := heach pre ev post hsplit
  obtain ⟨hop, heffect⟩ := hevent.failed hdone
  have hspares : Op.Spares ev.op ev.choice ev.before.queue := hspared pre ev post hsplit
  rw [hop] at hspares
  have hwithdrawn : ∀ {row : CallRow}, ev.before.queue.row? new.id = some row → row.Harmless →
      .withdraw ∈ moves new.id tr := by
    intro row hrow hharmless
    have hstatus : row.status = .cancelled := by
      refine hharmless.resolve_left fun hread => ?_
      rw [(hq.row hkept heach hsplit hrow).2, hwrite] at hread
      cases hread
    have hstage : row.stage = .withdrawn := by simp only [CallRow.stage, hstatus]
    have hmoves : moves new.id pre = [.queue, .withdraw] := by
      rw [moves_of_row hevent.kept hrow, hstage]
      rfl
    rw [hsplit]
    unfold moves at hmoves ⊢
    rw [List.flatMap_append, hmoves]
    simp
  refine not_taken hkept ?_ w
  obtain rfl | rfl | rfl : c = .answer new.tenantId new.id ∨ c = .cancel new.tenantId new.id ∨
      c = .remove new.tenantId new.id := by simpa [NewCall.asks] using hc
  · obtain ⟨⟨⟩, -⟩ | ⟨v, queue, -, hfault, -⟩ := heffect
    obtain ⟨row, hrow, hharmless⟩ := hspares hfault
    exact hwithdrawn hrow hharmless
  · obtain ⟨⟨⟩, -⟩ | ⟨v, queue, -, hfault, -⟩ := heffect
    obtain ⟨row, hrow, hharmless | ⟨hstatus, hlanded⟩⟩ := hspares hfault
    · exact hwithdrawn hrow hharmless
    · exact mem_moves (by simp [hsplit]) (hevent.cancels hdone hlanded hrow
        (hq.row hkept heach hsplit hrow).1 hstatus)
  · obtain ⟨⟨⟩, -⟩ | ⟨v, queue, -, hfault, -⟩ := heffect
    obtain ⟨row, hrow, hharmless⟩ := hspares hfault
    exact hwithdrawn hrow hharmless

include heach hspared in
/-- A wait does not fail. -/
theorem not_slept {post : List (plane site).Event} (hsplit : tr = pre ++ ev :: post)
    {seconds : Rat} (hdone : (⟨.sleep seconds, .error .crash⟩ : Calls.Done) = ⟨ev.op, ev.answer⟩) :
    False := by
  have hran := (heach pre ev post hsplit).ran
  have hspares : Op.Spares ev.op ev.choice ev.before.queue := hspared pre ev post hsplit
  obtain ⟨t, o, ch, before, x, after⟩ := ev
  cases hdone
  have hanswer := congrArg Prod.fst (Option.some.inj hran)
  dsimp only at hanswer
  cases hfault : ch.fault with
  | none =>
    rw [hfault] at hanswer
    cases hanswer
  | some e =>
    rw [hfault] at hanswer
    cases hanswer
    exact hspares hfault

include hkept heach hspared in
/-- **A write whose call has failed is taken by none.** -/
theorem not_taken_failed {post : List (plane site).Event} (hsplit : tr = pre ++ ev :: post) {e : Exn}
    (hop : ev.op = .ended (.error e)) (he : e.ofCall = true) {now : Rat} {new : NewCall}
    (hq : Enqueues ev.thread now new tr) (hwrite : new.isWrite = true) (w : Option String) :
    .take w ∉ moves new.id tr := by
  have hends := (heach pre ev post hsplit).allowed
  rw [hop] at hends
  obtain ⟨now', new', x, hqueued, hbehind⟩ := hends.trouble e rfl he
  have hq' : Enqueues ev.thread now' new' tr := by
    rw [hsplit]
    exact Enqueues.append ⟨x, hqueued⟩ _
  obtain rfl := hq'.one heach hq
  have hcut : ∀ {d : Calls.Done}, d ∈ System.own ev.thread pre → ∃ p e q, tr = p ++ e :: q ∧
      d = ⟨e.op, e.answer⟩ := by
    intro d hd
    obtain ⟨before, after, hpast⟩ := List.append_of_mem hd
    obtain ⟨p, e, q, rfl, -, hdone, -, -⟩ := System.own_split hpast
    exact ⟨p, e, q ++ ev :: post, by simp [hsplit], hdone⟩
  cases e with
  | unavailable message =>
    rcases hbehind with hcancel | hread
    · exact not_taken hkept (withdrew heach hsplit hcancel) w
    · rw [hwrite] at hread
      cases hread
  | crash =>
    rcases hbehind with ⟨at', hfailed⟩ | ⟨c, hc, hfailed⟩ | ⟨seconds, hfailed⟩
    · obtain ⟨p, e, q, hsplit', hdone⟩ := hcut hfailed
      exact not_taken_enqueue hkept heach hspared hsplit' hwrite hdone w
    · obtain ⟨p, e, q, hsplit', hdone⟩ := hcut hfailed
      exact not_taken_ask hkept heach hspared hsplit' hq' hwrite hc hdone w
    · obtain ⟨p, e, q, hsplit', hdone⟩ := hcut hfailed
      exact (not_slept heach hspared hsplit' hdone).elim
  | _ => cases he

end Events

/-! ## Every run -/

/-- **The protocol of the queue**, in the runs whose failures do no harm: a call is handed out at
most once, its answer is recorded at most once and from the runner that holds it, and a write is
not handed out, before or after, when its call ends with an exception that leaves nothing open;
`call` raises no others, but for an unknown outcome, its caller's cancellation, and rounds that are
too few. -/
theorem queue_protocol (site : Site) (s : State) (hs : s.queue.rows = [])
    (d : Config Calls Exn (State × List (plane site).Event))
    (hr : (plane site).recorded.Reaches (fun _ (o : Op) ch st => o.Spares ch st.1.queue)
      (Config.idle (s, [])) d) :
    (handedOut d.shared.2).Pairwise (fun x y => x.2.id ≠ y.2.id) ∧
    (∀ id, d.shared.2.Pairwise fun e e' =>
      ∀ reply reply', Records id reply e → ¬ Records id reply' e') ∧
    System.Each (fun pre e => ∀ id reply, Records id reply e → FromHolder pre e id reply)
      d.shared.2 ∧
    (∀ ev ∈ d.shared.2, ∀ e, ev.op = .ended (.error e) → e.ofCall = true →
      ∀ now new, Enqueues ev.thread now new d.shared.2 → new.isWrite = true →
        ∀ x ∈ handedOut d.shared.2, x.2.id ≠ new.id) ∧
    ∀ tenantId r rounds, Raises (call site tenantId r rounds) := by
  obtain ⟨hkept, heach⟩ := kept_of_reaches hs hr
  have hspared : Spared d.shared.2 := fun pre ev post hsplit =>
    (System.recorded_each hr pre ev post hsplit).1
  refine ⟨handed_apart hkept heach, fun id => ?_, fun pre e post hsplit id reply hrecords => ?_,
    fun ev hev e hop he now new hq hwrite => ?_, raises_call site⟩
  · refine List.Pairwise.imp_of_mem ?_ (answered_by_one hkept id)
    intro e e' he he' hone reply reply' hrecords hrecords'
    obtain ⟨p, q, hcut⟩ := List.append_of_mem he
    obtain ⟨p', q', hcut'⟩ := List.append_of_mem he'
    exact hone _ _ ((heach p e q hcut).recorded hrecords) ((heach p' e' q' hcut').recorded hrecords')
  · exact answered_by_holder hkept heach hsplit ((heach pre e post hsplit).recorded hrecords)
  · obtain ⟨pre, post, hsplit⟩ := List.append_of_mem hev
    exact not_handed heach (not_taken_failed hkept heach hspared hsplit hop he hq hwrite)

/-- The database fails when the caller withdraws a call that nobody has taken, and the withdrawal is
done. -/
def sparedSteps : List (Nat × Choice) :=
  turns 0 7 ++ [(0, { reading := 100 }), (0, { fault := some .crash, landed := true })] ++
    turns 0 1 ++ turns 1 5

/-- The event tells a caller that its call has failed. -/
def fails (ev : (plane sampleSite).Event) : Bool :=
  match ev.op with
  | .ended (.error e) => e.ofCall
  | _ => false

theorem queue_protocol_sample : ∃ d : Config Calls Exn (State × List (plane sampleSite).Event),
    d.shared.2.any fails = true ∧
    (handedOut d.shared.2).Pairwise (fun x y => x.2.id ≠ y.2.id) ∧
    (∀ id, d.shared.2.Pairwise fun e e' =>
      ∀ reply reply', Records id reply e → ¬ Records id reply' e') ∧
    System.Each (fun pre e => ∀ id reply, Records id reply e → FromHolder pre e id reply)
      d.shared.2 ∧
    (∀ ev ∈ d.shared.2, ∀ e, ev.op = .ended (.error e) → e.ofCall = true →
      ∀ now new, Enqueues ev.thread now new d.shared.2 → new.isWrite = true →
        ∀ x ∈ handedOut d.shared.2, x.2.id ≠ new.id) ∧
    ∀ tenantId r rounds, Raises (call sampleSite tenantId r rounds) := by
  have hplay : ((plane sampleSite).recorded.playIf
      (fun _ (o : Op) (ch : Choice) st => decide (o.Spares ch st.1.queue))
      (Config.idle ({}, [])) (sampleMoves sparedSteps)).map (fun d => d.shared.2.any fails) =
        some true := by
    decide +kernel
  obtain ⟨d, hd, hfails⟩ := Option.map_eq_some_iff.mp hplay
  exact ⟨d, hfails, queue_protocol sampleSite {} rfl d
    (System.playIf_reaches _ (fun _ (o : Op) (ch : Choice) st hok => of_decide_eq_true hok)
      (starts_sampleMoves _) hd)⟩

/-- The database fails at the first look at a write that nobody has taken yet; then a runner asks. -/
def failedSteps : List (Nat × Choice) :=
  turns 0 6 ++ [(0, { fault := some .crash })] ++ turns 0 1 ++ turns 1 7

/-- The call that an event puts in the queue. -/
def queued (ev : (plane sampleSite).Event) : Option (Rat × NewCall) :=
  match ev.op with
  | .db (.enqueue now new) => some (now, new)
  | _ => none

/-- **A write can be made after its call has failed.**  The exception of a look at the queue leaves
the call there, and a runner takes it. -/
theorem taken_after_failure : ¬ ∀ (site : Site) (s : State), s.queue.rows = [] →
    ∀ d : Config Calls Exn (State × List (plane site).Event),
      (plane site).recorded.Reaches (plane site).recorded.anyStep (Config.idle (s, [])) d →
      ∀ ev ∈ d.shared.2, ∀ e, ev.op = .ended (.error e) → e.ofCall = true →
        ∀ now new, Enqueues ev.thread now new d.shared.2 → new.isWrite = true →
          ∀ x ∈ handedOut d.shared.2, x.2.id ≠ new.id := by
  intro hall
  have hplay : ((plane sampleSite).recorded.play (Config.idle ({}, []))
      (sampleMoves failedSteps)).map (fun d => d.shared.2.any fun ev => fails ev &&
        d.shared.2.any fun ev' => ev'.thread == ev.thread && (queued ev').any fun q =>
          q.2.isWrite && (handedOut d.shared.2).any fun x => x.2.id == q.2.id) = some true := by
    decide +kernel
  obtain ⟨d, hseen, hr⟩ := sample_run (fun tr => tr.any fun ev => fails ev &&
    tr.any fun ev' => ev'.thread == ev.thread && (queued ev').any fun q =>
      q.2.isWrite && (handedOut tr).any fun x => x.2.id == q.2.id) hplay
  simp only [List.any_eq_true, Bool.and_eq_true, Option.any_eq_true, beq_iff_eq] at hseen
  obtain ⟨ev, hev, hfails, ev', hev', hthread, ⟨now, new⟩, hqueued, hwrite, x, hx, hid⟩ := hseen
  have hq : Enqueues ev.thread now new d.shared.2 := by
    obtain ⟨t, o, ch, before, v, after⟩ := ev'
    obtain rfl : t = ev.thread := hthread
    unfold queued at hqueued
    split at hqueued
    · rename_i hop
      obtain rfl : o = _ := hop
      cases hqueued
      exact ⟨v, System.own_mem hev'⟩
    · cases hqueued
  unfold fails at hfails
  split at hfails
  · rename_i e hop
    exact hall sampleSite {} rfl d hr ev hev e hop hfails now new hq hwrite x hx hid
  · cases hfails

end Dispatch
end L1Agent
