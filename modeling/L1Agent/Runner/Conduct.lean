import L1Agent.Runner.Dispatch

/-! # What each party does, by its own past

`Allowed` says which operations a caller or a route of the runners calls after what it has done by
then, whatever the answers are and whatever the others do.

A call is put in the queue only as the caller has made and signed it (`Prepared`); what the caller
is given in the end is the answer that it has read, or that its call was withdrawn (`Ends`); a
response holds what this request has claimed, the writes among it once they are released
(`Offered`, `Released`).  `serves_follows` is for every party.
-/
namespace L1Agent
namespace Dispatch
open Interleaving
open Access (RunnerIdentity)

variable (site : Site)

/-- A transaction and what was answered. -/
abbrev asked (c : DbCall) (answer : Except Fault c.Val) : Calls.Done := ⟨.db c, answer⟩

/-- What `call` puts in the queue. -/
def newCall (id : Nat) (tenantId : String) (r : Request) (issued start : Rat) : NewCall :=
  let wait := site.waitSeconds.getD (r.timeoutSeconds + site.marginSeconds)
  let text := envelope site id tenantId r issued (issued + wait)
  { id, tenantId, kind := r.kind, connectorId := r.connector.connectorId,
    capabilityId := r.capabilityId, isWrite := r.isWrite, envelope := text,
    signature := site.sign text, deadline := start + wait }

/-- A call is queued by one that has done nothing but draw its id and read the clocks. -/
def Prepared (past : List Calls.Done) (now : Rat) (new : NewCall) : Prop :=
  ∃ tenantId r issued start,
    past = [⟨.uuid4, new.id⟩, ⟨.time, issued⟩, ⟨.utcnow, start⟩, ⟨.utcnow, now⟩] ∧
    new = newCall site new.id tenantId r issued start

/-- The control plane has refused no call by itself. -/
def Unrefused (done : List Calls.Done) : Prop :=
  ∀ tenantId id reply x, asked (.recordResult tenantId id reply none) x ∉ done

/-- The kill switches were off, and the audit log says who is given the write. -/
def Released (runner : RunnerIdentity) (c : Claimed) (done : List Calls.Done) : Prop :=
  Unrefused done ∧ asked (.switchesOn runner.tenantId) (.ok []) ∈ done ∧
    ∃ event, handOver site runner c = some event ∧ asked (.handOver event) (.ok ()) ∈ done

/-- No response has been given. -/
def Unanswered (past : List Calls.Done) : Prop :=
  ∀ runner calls, (⟨.respond runner calls, ()⟩ : Calls.Done) ∉ past

/-- A runner is given calls that were claimed for it, the writes among them once they are
released. -/
def Offered (past : List Calls.Done) (runner : RunnerIdentity) (calls : List Claimed) : Prop :=
  Unanswered past ∧ ∃ before now limit claimed after,
    past = before ++ asked (.claim now runner limit) (.ok claimed) :: after ∧
    calls.Sublist claimed ∧ ∀ c ∈ calls, c.isWrite = true → Released site runner c after

/-- The transactions of a caller about its call, besides the one that puts it in the queue. -/
def NewCall.asks (new : NewCall) : List DbCall :=
  [.answer new.tenantId new.id, .cancel new.tenantId new.id, .remove new.tenantId new.id]

/-- The task was cancelled while it waited for an operation. -/
def Interrupted (past : List Calls.Done) : Prop :=
  (∃ c, asked c (.error .cancelled) ∈ past) ∨
    ∃ seconds, (⟨.sleep seconds, .error .cancelled⟩ : Calls.Done) ∈ past

/-- What is behind an exception of `call`: an operation that has failed, or that the call was
withdrawn; a read may have been taken and not answered. -/
def Behind (new : NewCall) (past : List Calls.Done) : Exn → Prop
  | .cancelled => Interrupted past
  | .crash => (∃ now, asked (.enqueue now new) (.error .crash) ∈ past) ∨
      (∃ c ∈ new.asks, asked c (.error .crash) ∈ past) ∨
      ∃ seconds, (⟨.sleep seconds, .error .crash⟩ : Calls.Done) ∈ past
  | .unavailable _ => asked (.cancel new.tenantId new.id) (.ok true) ∈ past ∨ new.isWrite = false
  | _ => True

/-- The exceptions that only `call` raises, but for an unknown outcome and a cancellation. -/
def Exn.ofCall : Exn → Bool
  | unavailable _ | crash => true
  | _ => false

/-- The exceptions of a caller that leave open what has become of its call. -/
def Exn.leavesOpen (past : List Calls.Done) : Exn → Prop
  | outcomeUnknown _ | unfinished => True
  | cancelled => Interrupted past
  | _ => False

/-- What a caller is given tells what has become of its call. -/
structure Ends (past : List Calls.Done) (r : Except Exn Runner.Result) : Prop where
  result : ∀ result, r = .ok result → ∃ now new reply,
    asked (.enqueue now new) (.ok ()) ∈ past ∧
    asked (.answer new.tenantId new.id) (.ok (some reply)) ∈ past ∧ resultOf site reply = .ok result
  withdrawal : r = .error withdrawn → ∃ now new, asked (.enqueue now new) (.ok ()) ∈ past ∧
    asked (.cancel new.tenantId new.id) (.ok true) ∈ past
  trouble : ∀ e, r = .error e → e.ofCall = true → ∃ now new x,
    asked (.enqueue now new) x ∈ past ∧ Behind new past e
  /-- Any other exception comes before the call is queued, or out of its answer. -/
  answer : ∀ e, r = .error e → e.ofCall = false → e.leavesOpen past ∨
    (∀ now new x, asked (.enqueue now new) x ∉ past) ∨ ∃ now new reply,
      asked (.enqueue now new) (.ok ()) ∈ past ∧
      asked (.answer new.tenantId new.id) (.ok (some reply)) ∈ past ∧ resultOf site reply = .error e

/-- The runner holds the call: a claim in its name has found it. -/
def Held (past : List Calls.Done) (runner : RunnerIdentity) (c : Claimed) : Prop :=
  ∃ now limit claimed, asked (.claim now runner limit) (.ok claimed) ∈ past ∧ c ∈ claimed

/-- The operations that a party may call after this past. -/
def Allowed (past : List Calls.Done) : Op → Prop
  | .db (.enqueue now new) => Prepared site past now new
  | .db (.recordResult tenantId id reply none) => reply.outcome = "not_authorized" ∧
    Unanswered past ∧ ∃ runner c, Held past runner c ∧ runner.tenantId = tenantId ∧ c.id = id
  | .respond runner calls => Offered site past runner calls
  | .ended r => Ends site past r
  | _ => True

variable {site}

/-! ## Single operations -/

variable {past : List Calls.Done}

theorem follows_askDb {c : DbCall} {Q : List Calls.Done → Except Exn c.Val → Prop}
    (hok : Allowed site past (.db c)) (hv : ∀ v, Q (past ++ [asked c (.ok v)]) (.ok v))
    (he : ∀ e : Fault, Q (past ++ [asked c (.error e)]) (.error e.exn)) :
    (askDb c).Follows (Allowed site) past Q := by
  refine ⟨hok, fun x => ?_⟩
  cases x with
  | ok v => exact hv v
  | error e => exact he e

theorem follows_sleep {seconds : Rat} {Q : List Calls.Done → Except Exn Unit → Prop}
    (hv : Q (past ++ [⟨.sleep seconds, .ok ()⟩]) (.ok ()))
    (he : ∀ e : Fault, Q (past ++ [⟨.sleep seconds, .error e⟩]) (.error e.exn)) :
    (sleep seconds).Follows (Allowed site) past Q := by
  refine ⟨True.intro, fun x => ?_⟩
  cases x with
  | ok v => exact hv
  | error e => exact he e

/-! ## What `call` raises -/

/-- One of the exceptions that a caller takes for a failure, or one of the others. -/
def Raised (e : Exn) : Prop :=
  e.ofCall = true ∨ e = .cancelled ∨ e = .unfinished ∨ ∃ message, e = .outcomeUnknown message

theorem Raised.leavesOpen {e : Exn} (h : Raised e) (he : e.ofCall = false) {new : NewCall}
    (hbehind : Behind new past e) : e.leavesOpen past := by
  obtain h | rfl | rfl | ⟨message, rfl⟩ := h
  · rw [he] at h
    cases h
  · exact hbehind
  · exact trivial
  · exact trivial

/-- A program that raises these exceptions only. -/
abbrev Raises {α : Type} (p : Prog α) : Prop := p.Always fun r => ∀ e, r = .error e → Raised e

theorem Raises.bind {α β : Type} {p : Prog α} {f : α → Prog β} (hp : Raises p)
    (hf : ∀ a, Raises (f a)) : Raises (p.bind f) := by
  refine Program.Always.bind (hp.mono fun r hr => ?_)
  cases r with
  | ok a => exact hf a
  | error e =>
    rintro _ ⟨⟩
    exact hr e rfl

theorem raises_ret {α : Type} (a : α) : Raises (.ret a) := by
  rintro _ ⟨⟩

theorem raises_op (o : Op) : Raises (Program.op (E := Calls) o) := fun x => raises_ret x

theorem raises_raise {α : Type} {e : Exn} (h : Raised e) : Raises (.raise e : Prog α) := by
  rintro _ ⟨⟩
  exact h

theorem raised_fault (e : Fault) : Raised e.exn := by
  cases e with
  | cancelled => exact .inr (.inl rfl)
  | crash => exact .inl rfl

theorem raises_orRaise {α : Type} (x : Except Fault α) : Raises (orRaise x) := by
  cases x with
  | ok a => exact raises_ret a
  | error e => exact raises_raise (raised_fault e)

theorem raises_askDb (c : DbCall) : Raises (askDb c) := (raises_op _).bind raises_orRaise

theorem raises_sleep (seconds : Rat) : Raises (sleep seconds) :=
  (raises_op _).bind fun (x : Except Fault Unit) => raises_orRaise x

section
variable (site)

theorem raises_watch (tenantId : String) (id : Nat) (ends : Rat) (rounds : Nat) :
    Raises (watch site tenantId id ends rounds) := by
  induction rounds with
  | zero => exact raises_raise (.inr (.inr (.inl rfl)))
  | succ rounds ih =>
    refine (raises_askDb _).bind fun row => ?_
    cases row with
    | some answer => exact (raises_askDb _).bind fun _ => raises_ret _
    | none =>
      refine (raises_op _).bind fun (now : Rat) => .ite (fun _ => raises_ret _) fun _ => ?_
      exact (raises_sleep _).bind fun _ => ih

theorem raises_withdrawing (tenantId : String) (id : Nat) {p : Prog (Option Answer)}
    (hp : Raises p) : Raises (withdrawing tenantId id p) := by
  refine Program.Always.tryCatch (hp.mono fun r hr => ?_)
  cases r with
  | ok found => exact raises_ret found
  | error e =>
    have he := raises_raise (α := Option Answer) (hr e rfl)
    cases e with
    | cancelled => exact (raises_askDb _).bind fun _ => he
    | _ => exact he

theorem raises_settle (tenantId : String) (id : Nat) (isWrite : Bool) :
    Raises (settle tenantId id isWrite) := by
  refine (raises_askDb _).bind fun cancelled => .ite (fun _ => ?_) fun _ => ?_
  · exact (raises_askDb _).bind fun _ => raises_raise (.inl rfl)
  · refine (raises_askDb _).bind fun row => ?_
    cases row with
    | some answer => exact (raises_askDb _).bind fun _ => raises_ret _
    | none =>
      exact .ite (fun _ => raises_raise (.inr (.inr (.inr ⟨_, rfl⟩)))) fun _ =>
        raises_raise (.inl rfl)

/-- **What `call` raises.** -/
theorem raises_call (tenantId : String) (r : Request) (rounds : Nat) :
    Raises (call site tenantId r rounds) := by
  refine (raises_op _).bind fun id => (raises_op _).bind fun issued =>
    (raises_op _).bind fun start => (raises_op _).bind fun now =>
    (raises_askDb _).bind fun _ => (raises_op _).bind fun started =>
      (raises_withdrawing tenantId id (raises_watch site _ _ _ _)).bind fun found => ?_
  cases found with
  | some answer => exact raises_ret answer
  | none => exact raises_settle tenantId id r.isWrite

end

/-! ## Callers -/

/-- An exception that does not say that a call was withdrawn. -/
def Exn.plain : Exn → Bool
  | unavailable _ => false
  | _ => true

theorem Fault.plain_exn (e : Fault) : e.exn.plain = true := by
  cases e <;> rfl

theorem admission_raises {set : RemoteConnectorSet} {capabilityId : String} {parameters : Json}
    {context : Option StepContext} {grant : Option Json} {dryRun : Bool} {e : Exn}
    (h : admission site set capabilityId parameters context grant dryRun = .error e) :
    e.ofCall = false := by
  unfold admission at h
  split at h
  · cases h
    rfl
  · split at h
    · cases h
      rfl
    · split at h
      · cases h
        rfl
      · dsimp only at h
        split_ifs at h <;> cases h <;> rfl

theorem resultOf_raises {reply : Answer} {e : Exn} (h : resultOf site reply = .error e) :
    e.ofCall = false := by
  unfold resultOf at h
  cases hraise : raiseFor reply.outcome (errorOf site reply.result) with
  | error e' =>
    rw [hraise] at h
    cases h
    unfold raiseFor at hraise
    split_ifs at hraise <;> cases hraise <;> rfl
  | ok _ =>
    rw [hraise] at h
    have h : (if reply.outcome = "ok" then _ else _) = _ := h
    split_ifs at h

/-- A runner that refuses a call gives no result. -/
theorem resultOf_notAuthorized {reply : Answer} (h : reply.outcome = "not_authorized")
    (result : Runner.Result) : resultOf site reply ≠ .ok result := by
  intro hresult
  have hraise : raiseFor reply.outcome (errorOf site reply.result) =
      .error (.writeNotAuthorized
        (orText (errorOf site reply.result) "the runner did not accept the grant")) := by
    rw [h]
    rfl
  unfold resultOf at hresult
  rw [hraise] at hresult
  cases hresult

variable {new : NewCall} {now : Rat}

/-- The call is in the queue, for all that its thread knows. -/
def Placed (now : Rat) (new : NewCall) (past : List Calls.Done) : Prop :=
  asked (.enqueue now new) (.ok ()) ∈ past

theorem Placed.add (h : Placed now new past) (d : Calls.Done) : Placed now new (past ++ [d]) :=
  List.mem_append_left _ h

theorem Interrupted.add (h : Interrupted past) (d : Calls.Done) : Interrupted (past ++ [d]) :=
  h.imp (fun ⟨c, hc⟩ => ⟨c, List.mem_append_left _ hc⟩)
    fun ⟨seconds, hc⟩ => ⟨seconds, List.mem_append_left _ hc⟩

/-- A transaction about the call has failed. -/
theorem behind_ask {c : DbCall} (hc : c ∈ new.asks) (e : Fault) :
    Behind new (past ++ [asked c (.error e)]) e.exn := by
  have hlast : asked c (.error e) ∈ past ++ [asked c (.error e)] :=
    List.mem_append_right _ (List.mem_singleton_self _)
  cases e with
  | cancelled => exact .inl ⟨c, hlast⟩
  | crash => exact .inr (.inl ⟨c, hc, hlast⟩)

theorem behind_sleep (seconds : Rat) (e : Fault) :
    Behind new (past ++ [⟨.sleep seconds, .error e⟩]) e.exn := by
  have hlast : (⟨.sleep seconds, .error e⟩ : Calls.Done) ∈
      past ++ [⟨.sleep seconds, .error e⟩] :=
    List.mem_append_right _ (List.mem_singleton_self _)
  cases e with
  | cancelled => exact .inr ⟨seconds, hlast⟩
  | crash => exact .inr (.inr ⟨seconds, hlast⟩)

theorem NewCall.asks_answer : .answer new.tenantId new.id ∈ new.asks := List.mem_cons_self ..

theorem NewCall.asks_cancel : .cancel new.tenantId new.id ∈ new.asks :=
  List.mem_cons_of_mem _ (List.mem_cons_self ..)

theorem NewCall.asks_remove : .remove new.tenantId new.id ∈ new.asks :=
  List.mem_cons_of_mem _ (List.mem_cons_of_mem _ (List.mem_singleton_self _))

/-- What a round of waiting ends with. -/
def Watched (now : Rat) (new : NewCall) (past : List Calls.Done) :
    Except Exn (Option Answer) → Prop
  | .ok reply => Placed now new past ∧
    ∀ a, reply = some a → asked (.answer new.tenantId new.id) (.ok (some a)) ∈ past
  | .error e => Placed now new past ∧ e.plain = true ∧ Behind new past e

theorem watch_follows (ends : Rat) (rounds : Nat) (h : Placed now new past) :
    (watch site new.tenantId new.id ends rounds).Follows (Allowed site) past
      (Watched now new) := by
  induction rounds generalizing past with
  | zero => exact ⟨h, rfl, True.intro⟩
  | succ rounds ih =>
    refine .bind (follows_askDb True.intro (fun row => ?_) fun e =>
      ⟨h.add _, e.plain_exn, behind_ask NewCall.asks_answer e⟩)
    have hrow := h.add (asked (.answer new.tenantId new.id) (.ok row))
    cases row with
    | some answer =>
      refine .bind (follows_askDb True.intro (fun _ => ⟨hrow.add _, ?_⟩) fun e =>
        ⟨hrow.add _, e.plain_exn, behind_ask NewCall.asks_remove e⟩)
      rintro a ⟨⟩
      simp
    | none =>
      refine .bind (.op True.intro fun (reading : Rat) => ?_)
      have hread := hrow.add ⟨.monotonic, reading⟩
      refine .ite (fun _ => ⟨hread, ?_⟩) fun _ => .bind (follows_sleep (ih (hread.add _)) fun e =>
        ⟨hread.add _, e.plain_exn, behind_sleep _ e⟩)
      rintro a ⟨⟩

theorem withdrawing_follows {p : Prog (Option Answer)}
    (h : p.Follows (Allowed site) past (Watched now new)) :
    (withdrawing new.tenantId new.id p).Follows (Allowed site) past (Watched now new) := by
  refine .tryCatch (h.mono fun past' r hr => ?_)
  cases r with
  | ok reply => exact hr
  | error e =>
    cases e with
    | cancelled =>
      have hcancelled : Interrupted past' := hr.2.2
      exact .bind (follows_askDb True.intro (fun _ => ⟨hr.1.add _, rfl, hcancelled.add _⟩) fun e =>
        ⟨hr.1.add _, e.plain_exn, behind_ask NewCall.asks_cancel e⟩)
    | _ => exact hr

/-- What is known when a call has ended. -/
def Settled (now : Rat) (new : NewCall) (past : List Calls.Done) : Except Exn Answer → Prop
  | .ok reply => Placed now new past ∧
    asked (.answer new.tenantId new.id) (.ok (some reply)) ∈ past
  | .error e => (∃ x, asked (.enqueue now new) x ∈ past) ∧ Behind new past e ∧ (e = withdrawn →
    Placed now new past ∧ asked (.cancel new.tenantId new.id) (.ok true) ∈ past)

theorem settled_of_plain {e : Exn} (h : e.plain = true) {x : Except Fault Unit}
    (hqueued : asked (.enqueue now new) x ∈ past) (hbehind : Behind new past e) :
    Settled now new past (.error e) := by
  refine ⟨⟨x, hqueued⟩, hbehind, ?_⟩
  rintro rfl
  cases h

theorem settle_follows (h : Placed now new past) :
    (settle new.tenantId new.id new.isWrite).Follows (Allowed site) past (Settled now new) := by
  refine .bind (follows_askDb True.intro (fun cancelled => ?_) fun e =>
    settled_of_plain e.plain_exn (h.add _) (behind_ask NewCall.asks_cancel e))
  have hcancel := h.add (asked (.cancel new.tenantId new.id) (.ok cancelled))
  cases cancelled with
  | true =>
    refine .bind (follows_askDb True.intro (fun _ => ?_) fun e =>
      settled_of_plain e.plain_exn (hcancel.add _) (behind_ask NewCall.asks_remove e))
    exact ⟨⟨_, hcancel.add _⟩, .inl (by simp), fun _ => ⟨hcancel.add _, by simp⟩⟩
  | false =>
    refine .bind (follows_askDb True.intro (fun row => ?_) fun e =>
      settled_of_plain e.plain_exn (hcancel.add _) (behind_ask NewCall.asks_answer e))
    have hrow := hcancel.add (asked (.answer new.tenantId new.id) (.ok row))
    cases row with
    | some reply =>
      exact .bind (follows_askDb True.intro (fun _ => ⟨hrow.add _, by simp⟩) fun e =>
        settled_of_plain e.plain_exn (hrow.add _) (behind_ask NewCall.asks_remove e))
    | none =>
      refine .ite (fun _ => settled_of_plain rfl hrow True.intro) fun hread =>
        ⟨⟨_, hrow⟩, .inr (Bool.eq_false_iff.mpr hread), fun heq => ?_⟩
      exact absurd heq (by decide)

/-- How `call` ends: it has tried to put its call in the queue, and knows what has become of it. -/
theorem call_follows (tenantId : String) (r : Request) (rounds : Nat) :
    (call site tenantId r rounds).Follows (Allowed site) [] fun past res =>
      ∃ now new, Settled now new past res := by
  refine .bind (.op True.intro fun (id : Nat) => .bind (.op True.intro fun (issued : Rat) =>
    .bind (.op True.intro fun (start : Rat) => .bind (.op True.intro fun (now : Rat) => ?_))))
  have hprepared : Allowed site
      [⟨.uuid4, id⟩, ⟨.time, issued⟩, ⟨.utcnow, start⟩, ⟨.utcnow, now⟩]
      (.db (.enqueue now (newCall site id tenantId r issued start))) :=
    ⟨tenantId, r, issued, start, rfl, rfl⟩
  refine .bind (follows_askDb hprepared (fun _ => ?_) fun e => ?_)
  on_goal 2 =>
    -- nothing more is done about a call that may be in the queue or not
    have hlast := List.mem_append_right
      [⟨.uuid4, id⟩, ⟨.time, issued⟩, ⟨.utcnow, start⟩, ⟨.utcnow, now⟩]
      (List.mem_singleton_self
        (asked (.enqueue now (newCall site id tenantId r issued start)) (.error e)))
    refine ⟨now, _, settled_of_plain e.plain_exn hlast ?_⟩
    cases e with
    | cancelled => exact .inl ⟨_, hlast⟩
    | crash => exact .inl ⟨now, hlast⟩
  have hplaced : Placed now (newCall site id tenantId r issued start)
      ([⟨.uuid4, id⟩, ⟨.time, issued⟩, ⟨.utcnow, start⟩, ⟨.utcnow, now⟩] ++
        [asked (.enqueue now (newCall site id tenantId r issued start)) (.ok ())]) := by
    simp [Placed]
  refine .bind (.op True.intro fun (started : Rat) => ?_)
  refine .bind ((withdrawing_follows
    (watch_follows _ rounds (hplaced.add ⟨.monotonic, started⟩))).mono fun past found hfound => ?_)
  cases found with
  | error e => exact ⟨_, _, settled_of_plain hfound.2.1 hfound.1 hfound.2.2⟩
  | ok found =>
    cases found with
    | some reply => exact ⟨_, _, hfound.1, hfound.2 reply rfl⟩
    | none => exact (settle_follows hfound.1).mono fun _ _ h => ⟨_, _, h⟩

theorem invoke_follows (set : RemoteConnectorSet) (capabilityId : String) (parameters : Json)
    (context : Option StepContext) (grant : Option Json) (dryRun : Bool) (rounds : Nat) :
    (invoke site set capabilityId parameters context grant dryRun rounds).Follows (Allowed site) []
      (Ends site) := by
  have hraised : ∀ {past e}, Exn.ofCall e = false → (e.leavesOpen past ∨
      (∀ now new x, asked (.enqueue now new) x ∉ past) ∨ ∃ now new reply,
        asked (.enqueue now new) (.ok ()) ∈ past ∧
        asked (.answer new.tenantId new.id) (.ok (some reply)) ∈ past ∧
        resultOf site reply = .error e) → Ends site past (.error e) := by
    intro past e he hanswer
    refine ⟨?_, ?_, ?_, ?_⟩
    · rintro _ ⟨⟩
    · rintro ⟨⟩
      cases he
    · rintro _ ⟨⟩ hcall
      rw [he] at hcall
      cases hcall
    · rintro _ ⟨⟩ -
      exact hanswer
  unfold invoke
  cases hadmission : admission site set capabilityId parameters context grant dryRun with
  | error e => exact hraised (admission_raises hadmission) (.inr (.inl fun _ _ _ => by simp))
  | ok admitted =>
    show Program.Follows (Allowed site) ((call site set.tenantId admitted.2 rounds).bind
      fun reply => Program.ofExcept (resultOf site reply)) [] (Ends site)
    refine .bind (((call_follows set.tenantId admitted.2 rounds).always
      (raises_call site set.tenantId admitted.2 rounds)).mono fun past res hres => ?_)
    obtain ⟨⟨now, new, hsettled⟩, hraises⟩ := hres
    cases res with
    | error e =>
      refine ⟨?_, ?_, ?_, ?_⟩
      · rintro _ ⟨⟩
      · rintro ⟨⟩
        exact ⟨now, new, hsettled.2.2 rfl⟩
      · rintro _ ⟨⟩ -
        obtain ⟨x, hqueued⟩ := hsettled.1
        exact ⟨now, new, x, hqueued, hsettled.2.1⟩
      · rintro _ ⟨⟩ he
        exact .inl ((hraises e rfl).leavesOpen he hsettled.2.1)
    | ok reply =>
      cases hresult : resultOf site reply with
      | error e =>
        dsimp only
        rw [hresult]
        exact hraised (resultOf_raises hresult)
          (.inr (.inr ⟨now, new, reply, hsettled.1, hsettled.2, hresult⟩))
      | ok result =>
        dsimp only
        rw [hresult]
        refine ⟨?_, ?_, ?_, ?_⟩
        · rintro _ ⟨⟩
          exact ⟨now, new, reply, hsettled.1, hsettled.2, hresult⟩
        · rintro ⟨⟩
        · rintro _ ⟨⟩
        · rintro _ ⟨⟩

/-! ## The routes of the runners -/

variable {runner : RunnerIdentity}

/-- The operation is not a response. -/
def Op.silent : Op → Prop
  | .respond .. => False
  | _ => True

theorem issues_askDb {P : Op → Prop} {c : DbCall} (h : P (.db c)) : (askDb c).Issues P := by
  refine ⟨h, fun x => ?_⟩
  cases x with
  | ok v => exact True.intro
  | error e => exact True.intro

theorem handOutOne_silent (stopped : List String) (c : Claimed) :
    (handOutOne site runner stopped c).Issues Op.silent := by
  refine .ite (fun _ => .bind (issues_askDb True.intro) fun _ => True.intro) fun _ =>
    .ite (fun _ => ?_) fun _ => True.intro
  cases handOver site runner c with
  | none => exact True.intro
  | some event => exact .bind (issues_askDb True.intro) fun _ => True.intro

theorem handOut_silent (limit : Int) : (handOut site runner limit).Issues Op.silent := by
  have heach : ∀ stopped claimed, (handOutEach site runner stopped claimed).Issues Op.silent := by
    intro stopped claimed
    induction claimed with
    | nil => exact True.intro
    | cons c rest ih =>
      exact .bind (handOutOne_silent stopped c) fun _ => .bind ih fun _ => True.intro
  refine .bind ⟨True.intro, fun _ => True.intro⟩ fun now =>
    .bind (issues_askDb True.intro) fun claimed => .ite (fun _ => ?_) fun _ => .ite (fun _ => ?_)
      fun _ => ?_
  · exact True.intro
  · exact .bind (issues_askDb True.intro) fun stopped => heach stopped claimed
  · exact heach [] claimed

theorem unanswered_of {done : List Calls.Done} (h : ∀ d ∈ done, Op.silent d.op) :
    Unanswered done := fun _ _ hmem => h _ hmem

/-- The operation is not the control plane's own refusal of a call. -/
def Op.mild : Op → Prop
  | .db (.recordResult _ _ _ none) => False
  | _ => True

theorem unrefused_of {done : List Calls.Done} (h : ∀ d ∈ done, Op.mild d.op) :
    Unrefused done := fun _ _ _ _ hmem => h _ hmem

theorem Unanswered.append {after : List Calls.Done} (h : Unanswered past)
    (hafter : Unanswered after) : Unanswered (past ++ after) := fun runner calls hmem =>
  (List.mem_append.mp hmem).elim (h runner calls) (hafter runner calls)

theorem Unrefused.append {done after : List Calls.Done} (h : Unrefused done)
    (hafter : Unrefused after) : Unrefused (done ++ after) := fun tenantId id reply x hmem =>
  (List.mem_append.mp hmem).elim (h tenantId id reply x) (hafter tenantId id reply x)

/-- What a call that is handed out has passed. -/
def Passed (site : Site) (runner : RunnerIdentity) (stopped : List String) (c : Claimed)
    (done : List Calls.Done) : Prop :=
  c.isWrite = true → stopped = [] ∧
    ∃ event, handOver site runner c = some event ∧ asked (.handOver event) (.ok ()) ∈ done

theorem Held.append {c : Claimed} (h : Held past runner c) (more : List Calls.Done) :
    Held (past ++ more) runner c := by
  obtain ⟨now, limit, claimed, hmem, hc⟩ := h
  exact ⟨now, limit, claimed, List.mem_append_left _ hmem, hc⟩

theorem handOutOne_follows (stopped : List String) {c : Claimed} (hquiet : Unanswered past)
    (hheld : Held past runner c) :
    (handOutOne site runner stopped c).Follows (Allowed site) past fun past' r =>
      ∀ handed, r = .ok handed → ∃ after, past' = past ++ after ∧ Unanswered after ∧
        (stopped = [] → Unrefused after) ∧
        (handed = true → Passed site runner stopped c after) := by
  refine .ite (fun hstop => ?_) fun hgo => .ite (fun hwrite => ?_) fun hread => ?_
  · refine .bind (follows_askDb ⟨rfl, hquiet, runner, c, hheld, rfl, rfl⟩ (fun _ => ?_) fun e => ?_)
    · rintro handed ⟨⟩
      refine ⟨_, rfl, unanswered_of (by simp [Op.silent]), ?_, by rintro ⟨⟩⟩
      rintro rfl
      simp at hstop
    · rintro handed ⟨⟩
  · cases hevent : handOver site runner c with
    | none => rintro handed ⟨⟩
    | some event =>
      refine .bind (follows_askDb True.intro (fun _ => ?_) fun e => ?_)
      · rintro handed ⟨⟩
        refine ⟨_, rfl, unanswered_of (by simp [Op.silent]),
          fun _ => unrefused_of (by simp [Op.mild]), fun _ _ => ⟨?_, event, hevent, by simp⟩⟩
        simpa [hwrite] using hgo
      · rintro handed ⟨⟩
  · rintro handed ⟨⟩
    exact ⟨[], (List.append_nil _).symm, unanswered_of (by simp [Op.silent]),
      fun _ => unrefused_of (by simp [Op.mild]), fun _ hwrite => absurd hwrite hread⟩

theorem handOutEach_follows (stopped : List String) (claimed : List Claimed)
    (hquiet : Unanswered past) (hheld : ∀ c ∈ claimed, Held past runner c) :
    (handOutEach site runner stopped claimed).Follows (Allowed site) past fun past' r =>
      ∀ out, r = .ok out → ∃ after, past' = past ++ after ∧ out.Sublist claimed ∧
        (stopped = [] → Unrefused after) ∧ ∀ c ∈ out, Passed site runner stopped c after := by
  induction claimed generalizing past with
  | nil =>
    rintro out ⟨⟩
    exact ⟨[], (List.append_nil _).symm, .slnil, fun _ => unrefused_of (by simp [Op.mild]),
      fun c hc => absurd hc List.not_mem_nil⟩
  | cons c rest ih =>
    refine .bind ((handOutOne_follows stopped hquiet (hheld c (List.mem_cons_self ..))).mono
      fun past' r hr => ?_)
    cases r with
    | error e => rintro out ⟨⟩
    | ok handed =>
      obtain ⟨first, rfl, hsilent, hone, hfirst⟩ := hr handed rfl
      refine .bind ((ih (hquiet.append hsilent) fun c' hc' =>
        (hheld c' (List.mem_cons_of_mem _ hc')).append first).mono fun past' r hr => ?_)
      cases r with
      | error e => rintro out ⟨⟩
      | ok out =>
        obtain ⟨after, rfl, hsub, hrest, hout⟩ := hr out rfl
        have hlater : ∀ c ∈ out, Passed site runner stopped c (first ++ after) := by
          intro c hc hwrite
          obtain ⟨hstopped, event, hevent, hmem⟩ := hout c hc hwrite
          exact ⟨hstopped, event, hevent, List.mem_append_right _ hmem⟩
        rintro _ ⟨⟩
        have hall : stopped = [] → Unrefused (first ++ after) := fun hnone =>
          (hone hnone).append (hrest hnone)
        refine ⟨first ++ after, List.append_assoc _ _ _, ?_⟩
        cases handed with
        | false => exact ⟨hsub.cons _, hall, hlater⟩
        | true =>
          refine ⟨hsub.cons_cons _, hall, fun c' hc' => ?_⟩
          rcases List.mem_cons.mp hc' with rfl | hc'
          · intro hwrite
            obtain ⟨hstopped, event, hevent, hmem⟩ := hfirst rfl hwrite
            exact ⟨hstopped, event, hevent, List.mem_append_left _ hmem⟩
          · exact hlater c' hc'

/-- What `hand_out` returns has been claimed, and the writes among it are released. -/
theorem handOut_follows (limit : Int) (hquiet : Unanswered past) :
    (handOut site runner limit).Follows (Allowed site) past fun past' r =>
      ∀ calls, r = .ok calls → ∃ before now claimed after,
        past' = before ++ asked (.claim now runner limit) (.ok claimed) :: after ∧
        calls.Sublist claimed ∧ ∀ c ∈ calls, c.isWrite = true → Released site runner c after := by
  refine .bind (.op True.intro fun (now : Rat) =>
    .bind (follows_askDb True.intro (fun claimed => ?_) fun e => ?_))
  · have hheld : ∀ c ∈ claimed, Held
        (past ++ [⟨.utcnow, now⟩] ++ [asked (.claim now runner limit) (.ok claimed)]) runner c :=
      fun c hc => ⟨now, limit, claimed, by simp, hc⟩
    have hsilent : Unanswered
        (past ++ [⟨.utcnow, now⟩] ++ [asked (.claim now runner limit) (.ok claimed)]) :=
      (hquiet.append (unanswered_of (by simp [Op.silent]))).append
        (unanswered_of (by simp [Op.silent]))
    refine .ite (fun _ => ?_) fun _ => ?_
    · rintro calls ⟨⟩
      exact ⟨past ++ [⟨.utcnow, now⟩], now, claimed, [], rfl, List.nil_sublist _, by simp⟩
    · by_cases hwrites : claimed.any (·.isWrite) = true
      · rw [if_pos hwrites]
        refine .bind (follows_askDb True.intro (fun stopped => ?_) fun e => ?_)
        · refine (handOutEach_follows stopped claimed
            (hsilent.append (unanswered_of (by simp [Op.silent])))
            fun c hc => (hheld c hc).append _).mono fun past' r hr calls hcalls => ?_
          obtain ⟨after, rfl, hsub, hrest, hout⟩ := hr calls hcalls
          refine ⟨past ++ [⟨.utcnow, now⟩], now, claimed,
            asked (.switchesOn runner.tenantId) (.ok stopped) :: after, by simp, hsub,
            fun c hc hwrite => ?_⟩
          obtain ⟨rfl, event, hevent, hmem⟩ := hout c hc hwrite
          have hnone : Unrefused [asked (.switchesOn runner.tenantId) (.ok [])] :=
            unrefused_of (by simp [Op.mild])
          exact ⟨hnone.append (hrest rfl), List.mem_cons_self, event, hevent,
            List.mem_cons_of_mem _ hmem⟩
        · rintro calls ⟨⟩
      · rw [if_neg hwrites]
        refine (handOutEach_follows [] claimed hsilent hheld).mono fun past' r hr calls hcalls => ?_
        obtain ⟨after, rfl, hsub, -, hout⟩ := hr calls hcalls
        refine ⟨past ++ [⟨.utcnow, now⟩], now, claimed, after, by simp, hsub, fun c hc hwrite => ?_⟩
        exact absurd (List.any_eq_true.mpr ⟨c, hsub.subset hc, hwrite⟩) hwrites
  · rintro calls ⟨⟩

theorem unanswered_append {past after : List Calls.Done} (h : Unanswered past)
    (hafter : ∀ d ∈ after, Op.silent d.op) : Unanswered (past ++ after) := by
  intro runner calls hmem
  rcases List.mem_append.mp hmem with hmem | hmem
  · exact h runner calls hmem
  · exact hafter _ hmem

theorem offer_follows (limit : Int) (ends : Rat) (rounds : Nat) (h : Unanswered past) :
    (offer site runner limit ends rounds).Follows (Allowed site) past fun _ _ => True := by
  induction rounds generalizing past with
  | zero => exact True.intro
  | succ rounds ih =>
    refine .bind ((handOut_follows limit h).adds (handOut_silent limit) |>.mono ?_)
    rintro past' r ⟨hr, after, rfl, hafter⟩
    cases r with
    | error e => exact True.intro
    | ok calls =>
      -- a round that hands out nothing has sent no response, and the next one begins as it did
      have hquiet := unanswered_append h hafter
      obtain ⟨before, now, claimed, rest, hpast, hsub, hout⟩ := hr calls rfl
      have hanswer : ∀ more : List Calls.Done, (∀ d ∈ more, Op.silent d.op) → Unrefused more →
          Offered site (past ++ after ++ more) runner calls := by
        intro more hmore hnone
        refine ⟨unanswered_append hquiet hmore, before, now, limit, claimed, rest ++ more, ?_, hsub,
          fun c hc hwrite => ?_⟩
        · rw [hpast, List.append_assoc, List.cons_append]
        · obtain ⟨hrest, hstopped, event, hevent, hmem⟩ := hout c hc hwrite
          exact ⟨hrest.append hnone, List.mem_append_left _ hstopped, event, hevent,
            List.mem_append_left _ hmem⟩
      refine .ite (fun _ => .op ?_ fun _ => True.intro) fun _ =>
        .bind (.op True.intro fun (reading : Rat) => ?_)
      · have hnow := hanswer [] (by simp) (unrefused_of (by simp [Op.mild]))
        rw [List.append_nil] at hnow
        exact hnow
      have hread : ∀ d ∈ ([⟨.monotonic, reading⟩] : List Calls.Done), Op.silent d.op := by
        simp [Op.silent]
      have hreadMild : Unrefused [⟨.monotonic, reading⟩] := unrefused_of (by simp [Op.mild])
      refine .ite (fun _ => .op (hanswer _ hread hreadMild) fun _ => True.intro) fun _ =>
        .bind (.bind (.op True.intro fun (gone : Except Fault Bool) => ?_))
      have hgone : ∀ d ∈ ([⟨.monotonic, reading⟩, ⟨.isDisconnected, gone⟩] : List Calls.Done),
          Op.silent d.op := by
        simp [Op.silent]
      rw [List.append_assoc, List.singleton_append]
      cases gone with
      | error e => exact True.intro
      | ok gone =>
        have hgoneMild : Unrefused [⟨.monotonic, reading⟩, ⟨.isDisconnected, .ok gone⟩] :=
          unrefused_of (by simp [Op.mild])
        refine .ite (fun _ => .op (hanswer _ hgone hgoneMild) fun _ => True.intro) fun _ =>
          .bind (follows_sleep (ih ?_) fun e => True.intro)
        have hslept : ∀ d ∈ ([⟨.sleep site.claimPollSeconds, .ok ()⟩] : List Calls.Done),
            Op.silent d.op := by
          simp [Op.silent]
        exact unanswered_append (unanswered_append hquiet hgone) hslept

/-- **Each party keeps to what is allowed.** -/
theorem serves_follows {p : Prog Unit} (h : Serves site p) :
    p.Follows (Allowed site) [] fun _ _ => True := by
  cases h with
  | invoke set capabilityId parameters context grant dryRun rounds =>
    refine .bind (.attempt ((invoke_follows set capabilityId parameters context grant dryRun
      rounds).mono fun past r hr => ?_))
    exact ⟨hr, fun _ => True.intro⟩
  | test set connectorId rounds =>
    refine .bind (Program.Follows.mono (Q := fun _ _ => True) ?_ fun past r _ => ?_)
    · unfold test
      cases set.connectors.lookup connectorId with
      | none => exact True.intro
      | some connector =>
        refine .tryCatch (.bind ((call_follows _ _ rounds).mono fun past r _ => ?_))
        cases r with
        | ok reply => exact True.intro
        | error e => cases e <;> exact True.intro
    · cases r <;> exact True.intro
  | claim runner most wait reported rounds =>
    refine .bind (follows_askDb True.intro (fun _ => ?_) fun e => True.intro)
    refine .bind (.op True.intro fun (started : Rat) => offer_follows _ _ rounds ?_)
    have hquiet : ∀ d ∈ ([asked (.seen runner reported) (.ok ()), ⟨.monotonic, started⟩] :
        List Calls.Done), Op.silent d.op := by
      simp [Op.silent]
    exact fun _ _ hmem => hquiet _ hmem
  | result runner callId outcome result =>
    exact .bind (follows_askDb True.intro (fun _ => True.intro) fun e => True.intro)
  | switch tenantId on => exact follows_askDb True.intro (fun _ => True.intro) fun e => True.intro

end Dispatch
end L1Agent
