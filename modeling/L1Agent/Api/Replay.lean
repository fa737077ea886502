import L1Agent.Api.Access
import L1Agent.Library.Replays
import Mathlib.Algebra.Order.Group.Abs
import Mathlib.Algebra.Order.Group.Int

/-! # Signed requests are accepted once

A used signature is forgotten when a reading of the clock finds it expired.  A request whose
timestamp was in order when it was checked may come to be recorded much later, because its body is
read in between, or the clock may step back: then the signature is new again.  So the two theorems
speak of runs in which a signature is recorded while its timestamp is still in order.

The record is found by the signature as it is written in the header.  A runner's signature is
decoded before it is checked, and has many spellings.

`deliveries_accepted_once` is for the webhook and `requests_accepted_once` for the runners; each
comes with the run that shows its condition to be needed (`deliveries_accepted_again`,
`requests_accepted_again`).  A request's own order is `Allowed` (`serve_follows`); from it, and from
the guard against replays, each signature is new once (`guarded_of_recorded`).
-/
namespace L1Agent
namespace Access
open Interleaving Literals Replays

variable {gate : Gate}

abbrev Gate.Event (gate : Gate) := (server gate).Event

/-! ## What a request's thread has done -/

def Request.timestamp (request : Request) : String :=
  match request.access with
  | .webhook => request.header webhookTimestampHeader
  | .runner => request.header timestampHeader

def Request.signature (request : Request) : String :=
  match request.access with
  | .webhook => request.header webhookSignatureHeader
  | .runner => request.header signatureHeader

/-- How far the timestamp of a request may be off. -/
def Gate.skew (gate : Gate) : AccessKind → Int
  | .webhook => gate.webhookMaxSkewSeconds
  | .runner => maxSkewSeconds

/-- The timestamp was in order by a reading of the clock. -/
def InOrder (gate : Gate) (past : List Calls.Done) (request : Request) : Prop :=
  ∃ (reading sentAt : Int), (⟨⟨request, .time⟩, reading⟩ : Calls.Done) ∈ past ∧
    parseInt request.timestamp = some sentAt ∧
    |reading - seconds sentAt| ≤ seconds (gate.skew request.access)

/-- The use of the request's signature, found to be new. -/
def Gate.used (gate : Gate) (request : Request) (now : Int) : Calls.Done :=
  ⟨⟨request, .useSignature now gate.tenantId request.signature (2 * gate.skew request.access)⟩,
    (Except.ok true : Except Exn Bool)⟩

/-- The signature is good for what the request says. -/
def Gate.Signed (gate : Gate) (request : Request) (runner : Option RunnerIdentity) (body : Bytes) :
    Prop :=
  match request.access with
  | .webhook => gate.signWebhook request.timestamp body = some request.signature
  | .runner => ∃ who, runner = some who ∧ gate.verify who.publicKey requestDomain
      (gate.requestMessage request.method request.path request.timestamp body)
      request.signature = true

/-- Nothing has been handled yet. -/
def Unhandled (past : List Calls.Done) : Prop :=
  ∀ d ∈ past, ∀ runner body, d.op.call ≠ .handle runner body

/-- **What a request's thread may do** after what it has done: a signature is used after the
timestamp was found in order, and a request is handled once, after its signature was new.  Where
the webhook is open its body is left to the handler. -/
def Allowed (gate : Gate) (past : List Calls.Done) (o : Op) : Prop :=
  match o.call with
  | .utcnow => InOrder gate past o.request
  | .useSignature now tenantId signature ttl =>
    tenantId = gate.tenantId ∧ signature = o.request.signature ∧
      ttl = 2 * gate.skew o.request.access ∧ InOrder gate past o.request ∧
      (⟨⟨o.request, .utcnow⟩, now⟩ : Calls.Done) ∈ past
  | .handle runner body => Unhandled past ∧
      (body = none ∨ ∃ b now, body = some b ∧ gate.Signed o.request runner b ∧
        gate.used o.request now ∈ past)
  | _ => True

theorem Allowed.clock {past : List Calls.Done} {o : Op} (h : Allowed gate past o)
    (hcall : o.call = .utcnow) : InOrder gate past o.request := by
  unfold Allowed at h
  rw [hcall] at h
  exact h

theorem Allowed.use {past : List Calls.Done} {o : Op} (h : Allowed gate past o) {now : Int}
    {tenantId signature : String} {ttl : Int}
    (hcall : o.call = .useSignature now tenantId signature ttl) :
    tenantId = gate.tenantId ∧ signature = o.request.signature ∧
      ttl = 2 * gate.skew o.request.access ∧ InOrder gate past o.request ∧
      (⟨⟨o.request, .utcnow⟩, now⟩ : Calls.Done) ∈ past := by
  unfold Allowed at h
  rw [hcall] at h
  exact h

theorem Allowed.handle {past : List Calls.Done} {o : Op} (h : Allowed gate past o)
    {runner : Option RunnerIdentity} {body : Option Bytes} (hcall : o.call = .handle runner body) :
    Unhandled past ∧ (body = none ∨ ∃ b now, body = some b ∧ gate.Signed o.request runner b ∧
      gate.used o.request now ∈ past) := by
  unfold Allowed at h
  rw [hcall] at h
  exact h

theorem Unhandled.snoc {past : List Calls.Done} (h : Unhandled past) {d : Calls.Done}
    (hd : ∀ runner body, d.op.call ≠ .handle runner body) : Unhandled (past ++ [d]) := by
  intro d' hmem
  rcases List.mem_append.mp hmem with hmem | hmem
  · exact h d' hmem
  · cases List.mem_singleton.mp hmem
    exact hd

theorem unhandled_nil : Unhandled [] := fun _ h => nomatch h

/-- Finding the runner: whoever it is belongs to the tenant. -/
theorem follows_findPresented (request : Request) (presented : String) {past : List Calls.Done}
    (K : List Calls.Done → Prop) (hK : K past)
    (hgrow : ∀ d : Calls.Done, (∀ runner body, d.op.call ≠ .handle runner body) → K (past ++ [d])) :
    (findPresented gate request presented).Follows (Allowed gate) past fun past' r =>
      K past' ∧ ∀ who, r = .ok (some who) → who.tenantId = gate.tenantId := by
  have hrow : ∀ (call : Call) (h : call.Ans = Except Exn (Option RunnerRow))
      (f : Option RunnerRow → Prog (Option RunnerIdentity)),
      (∀ runner body, call ≠ .handle runner body) → Allowed gate past ⟨request, call⟩ →
      (∀ row, ∃ found, f row = pure found ∧
        ∀ who, found = some who → who.tenantId = gate.tenantId) →
      ((readRow request call h).bind f).Follows (Allowed gate) past fun past' r =>
        K past' ∧ ∀ who, r = .ok (some who) → who.tenantId = gate.tenantId := by
    intro call h f hcall hallowed hf
    refine ⟨hallowed, fun x => ?_⟩
    have hK' := hgrow ⟨⟨request, call⟩, x⟩ hcall
    show ((Program.ofExcept (cast h x)).bind f).Follows _ _ _
    cases cast h x with
    | error e => exact ⟨hK', fun _ h => nomatch h⟩
    | ok row =>
      obtain ⟨found, hfound, hwho⟩ := hf row
      show (f row).Follows _ _ _
      rw [hfound]
      exact ⟨hK', fun who h => hwho who (Except.ok.inj h)⟩
  unfold findPresented
  by_cases hkey : presented.startsWith keyIdentity = true
  · rw [if_pos hkey]
    unfold findByKey
    cases gate.parsePublic (presented.drop keyIdentity.length).toString with
    | none => exact ⟨hK, fun _ h => nomatch h⟩
    | some key =>
      refine hrow _ _ _ (fun _ _ h => by cases h) trivial fun row => ?_
      cases row with
      | none => exact ⟨none, rfl, fun _ h => nomatch h⟩
      | some row => exact ⟨some ⟨gate.tenantId, row.id, row.name, key⟩, rfl, by rintro _ ⟨⟩; rfl⟩
  · rw [if_neg hkey]
    cases gate.parseIdentity presented with
    | none => exact ⟨hK, fun _ h => nomatch h⟩
    | some named =>
      obtain ⟨tenantId, runnerId⟩ := named
      dsimp only
      by_cases htenant : tenantId = gate.tenantId
      · rw [if_neg (by simpa using htenant)]
        subst htenant
        refine hrow _ _ _ (fun _ _ h => by cases h) trivial fun row => ?_
        cases row with
        | none => exact ⟨none, rfl, fun _ h => nomatch h⟩
        | some row =>
          dsimp only
          cases gate.parsePublic row.publicKey with
          | none => exact ⟨none, rfl, fun _ h => nomatch h⟩
          | some key =>
            exact ⟨some ⟨gate.tenantId, runnerId, row.name, key⟩, rfl, by rintro _ ⟨⟩; rfl⟩
      · rw [if_pos htenant]
        exact ⟨hK, fun _ h => nomatch h⟩

/-- Using the signature. -/
theorem follows_use {request : Request} {past : List Calls.Done} (hpast : Unhandled past)
    (horder : InOrder gate past request) :
    (useWebhookSignature request gate.tenantId request.signature
      (2 * gate.skew request.access)).Follows (Allowed gate) past fun past' r =>
        Unhandled past' ∧ (r = .ok true → ∃ now, gate.used request now ∈ past') := by
  refine ⟨horder, fun now => ?_⟩
  have hnow := hpast.snoc (d := ⟨⟨request, .utcnow⟩, now⟩) fun _ _ h => by cases h
  obtain ⟨reading, sentAt, hreading, hsent⟩ := horder
  refine ⟨⟨rfl, rfl, rfl, ⟨reading, sentAt, List.mem_append_left _ hreading, hsent⟩, by simp⟩,
    fun fresh => ?_⟩
  have hused := hnow.snoc (d := ⟨⟨request, .useSignature now gate.tenantId request.signature
    (2 * gate.skew request.access)⟩, fresh⟩) fun _ _ h => by cases h
  cases fresh with
  | error e => exact ⟨hused, fun h => by cases h⟩
  | ok fresh =>
    refine ⟨hused, fun h => ?_⟩
    cases h
    exact ⟨now, List.mem_append_right _ (List.mem_singleton_self _)⟩

/-- The body has been read: what is done with it follows. -/
theorem follows_read {β : Type} {past : List Calls.Done} {body : Bytes}
    {k : Bytes → Prog β} {Q : List Calls.Done → Except Exn β → Prop}
    (h : (k body).Follows (Allowed gate) past Q) :
    (Program.bind (Program.bind (Program.ret (Except.ok body)) fun body =>
      Program.ofExcept body) k).Follows (Allowed gate) past Q := h

/-- **A request's thread does what is allowed.** -/
theorem serve_follows (request : Request) :
    (serve gate request).Follows (Allowed gate) [] fun _ _ => True := by
  unfold serve
  cases haccess : request.access with
  | webhook =>
    dsimp only
    unfold verifyWebhook
    have htimestamp : request.header webhookTimestampHeader = request.timestamp := by
      simp [Request.timestamp, haccess]
    have hsignature : request.header webhookSignatureHeader = request.signature := by
      simp [Request.signature, haccess]
    have hskew : gate.webhookMaxSkewSeconds = gate.skew request.access := by
      simp [Gate.skew, haccess]
    by_cases hopen : gate.webhookOpen = true
    · rw [if_pos hopen]
      exact ⟨⟨unhandled_nil, .inl rfl⟩, fun _ => trivial⟩
    rw [if_neg hopen]
    dsimp only
    by_cases hmissing : request.header webhookTimestampHeader = "" ∨
        request.header webhookSignatureHeader = ""
    · rw [if_pos hmissing]
      exact trivial
    rw [if_neg hmissing]
    cases hsent : parseInt (request.header webhookTimestampHeader) with
    | none => exact trivial
    | some sentAt =>
      refine ⟨trivial, fun (reading : Int) => ?_⟩
      show Program.Follows _ (Program.bind (ite (seconds gate.webhookMaxSkewSeconds <
        |reading - seconds sentAt|) _ _) _) _ _
      by_cases hstale : seconds gate.webhookMaxSkewSeconds < |reading - seconds sentAt|
      · rw [if_pos hstale]
        exact trivial
      rw [if_neg hstale]
      have htime := unhandled_nil.snoc (d := ⟨⟨request, .time⟩, reading⟩) fun _ _ h => by cases h
      refine ⟨trivial, fun body => ?_⟩
      have hbody := htime.snoc (d := ⟨⟨request, .body⟩, body⟩) fun _ _ h => by cases h
      cases body with
      | error e => exact trivial
      | ok body =>
        refine Program.Follows.bind (follows_read ?_)
        cases hsigned : gate.signWebhook (request.header webhookTimestampHeader) body with
        | none => exact trivial
        | some expected =>
          dsimp only
          by_cases hbad : expected ≠ request.header webhookSignatureHeader
          · rw [if_pos hbad]
            exact trivial
          rw [if_neg hbad]
          obtain rfl := not_not.mp hbad
          rw [htimestamp] at hsent hsigned
          rw [hskew] at hstale ⊢
          rw [hsignature] at hsigned ⊢
          refine Program.Follows.bind ((follows_use hbody
            ⟨reading, sentAt, by simp, hsent, not_lt.mp hstale⟩).mono ?_)
          rintro past' r ⟨hunhandled, hused⟩
          rcases r with e | fresh
          · exact trivial
          cases fresh with
          | false => exact trivial
          | true =>
            obtain ⟨now, hused⟩ := hused rfl
            refine ⟨⟨hunhandled, .inr ⟨body, now, rfl, ?_, hused⟩⟩, fun _ => trivial⟩
            unfold Gate.Signed
            rw [haccess]
            exact hsigned
  | runner =>
    dsimp only
    unfold verifyRunner
    have htimestamp : request.header timestampHeader = request.timestamp := by
      simp [Request.timestamp, haccess]
    have hsignature : request.header signatureHeader = request.signature := by
      simp [Request.signature, haccess]
    have hskew : maxSkewSeconds = gate.skew request.access := by
      simp [Gate.skew, haccess]
    dsimp only
    by_cases hmissing : request.header idHeader = "" ∨ request.header timestampHeader = "" ∨
        request.header signatureHeader = ""
    · rw [if_pos hmissing]
      exact trivial
    rw [if_neg hmissing]
    cases hsent : parseInt (request.header timestampHeader) with
    | none => exact trivial
    | some sentAt =>
      refine ⟨trivial, fun (reading : Int) => ?_⟩
      show Program.Follows _ (Program.bind (ite (seconds maxSkewSeconds <
        |reading - seconds sentAt|) _ _) _) _ _
      by_cases hstale : seconds maxSkewSeconds < |reading - seconds sentAt|
      · rw [if_pos hstale]
        exact trivial
      rw [if_neg hstale]
      have htime := unhandled_nil.snoc (d := ⟨⟨request, .time⟩, reading⟩) fun _ _ h => by cases h
      rw [htimestamp] at hsent ⊢
      rw [hskew] at hstale ⊢
      rw [hsignature]
      have horder : InOrder gate [⟨⟨request, .time⟩, reading⟩] request :=
        ⟨reading, sentAt, by simp, hsent, not_lt.mp hstale⟩
      refine Program.Follows.bind (Program.Follows.bind ((follows_findPresented request _
        (fun past => Unhandled past ∧ InOrder gate past request) ⟨htime, horder⟩ ?_).mono ?_))
      · rintro d hd
        obtain ⟨reading', sentAt', hmem, hrest⟩ := horder
        exact ⟨htime.snoc hd, ⟨reading', sentAt', List.mem_append_left _ hmem, hrest⟩⟩
      rintro past' r ⟨⟨hunhandled, horder⟩, hwho⟩
      cases r with
      | error e => exact trivial
      | ok found =>
        cases found with
        | none => exact trivial
        | some found =>
          have htenant := hwho found rfl
          refine ⟨trivial, fun body => ?_⟩
          have hbody := hunhandled.snoc (d := ⟨⟨request, .body⟩, body⟩) fun _ _ h => by cases h
          cases body with
          | error e => exact trivial
          | ok body =>
            show Program.Follows _ (ite (gate.verify found.publicKey requestDomain
              (gate.requestMessage request.method request.path request.timestamp body)
              request.signature = false) _ _) _ _
            by_cases hbad : gate.verify found.publicKey requestDomain
                (gate.requestMessage request.method request.path request.timestamp body)
                request.signature = false
            · rw [if_pos hbad]
              exact trivial
            rw [if_neg hbad, htenant]
            obtain ⟨reading', sentAt', hmem, hrest⟩ := horder
            refine Program.Follows.bind ((follows_use hbody
              ⟨reading', sentAt', List.mem_append_left _ hmem, hrest⟩).mono ?_)
            rintro past'' r ⟨hunhandled, hused⟩
            rcases r with e | fresh
            · exact trivial
            cases fresh with
            | false => exact trivial
            | true =>
              obtain ⟨now, hused⟩ := hused rfl
              refine ⟨⟨hunhandled, .inr ⟨body, now, rfl, ?_, hused⟩⟩, fun _ => trivial⟩
              unfold Gate.Signed
              rw [haccess]
              exact ⟨found, rfl, (Bool.not_eq_false _).mp hbad⟩

/-! ## The used signatures -/

/-- The last instant at which the timestamp of a request is in order; for requests of one kind. -/
def Gate.deadline (gate : Gate) (kind : AccessKind) (request : Request) : Option Int :=
  if request.access = kind then
    (parseInt request.timestamp).map fun sentAt => seconds (sentAt + gate.skew kind)
  else none

/-- A signature that was new, and the deadline of its timestamp. -/
structure Admitted where
  thread : Nat
  signature : String
  deadline : Int

/-- The signature that the event found to be new, for a request of one kind. -/
def Gate.Event.admitted (kind : AccessKind) : gate.Event → Option Admitted
  | ⟨thread, ⟨request, .useSignature _ _ signature _⟩, _, _, (.ok true : Except Exn Bool), _⟩ =>
    (gate.deadline kind request).map fun deadline => ⟨thread, signature, deadline⟩
  | _ => none

/-- The reading by which the event forgets records. -/
def Gate.Event.purges (ev : gate.Event) : Option Int :=
  match ev.op.call with
  | .useSignature now .. => if ev.choice.fails then none else some now
  | _ => none

/-- The readings that records have been forgotten by. -/
def purges (tr : List gate.Event) : List Int := tr.filterMap Gate.Event.purges

/-- The records and the signatures of one kind of requests. -/
def Gate.guard (gate : Gate) : Guard Nonce (String × String) Int Admitted where
  key n := (n.tenantId, n.signatureHash)
  lasts n t := t ≤ n.expiresAt
  keyOf a := (gate.tenantId, gate.textHash a.signature)
  fresh a t := t ≤ a.deadline

/-- The state and the history are in keeping. -/
def Guarded (kind : AccessKind) (s : Server) (tr : List gate.Event) : Prop :=
  gate.guard.Sound (purges tr) s.nonces (tr.filterMap (Gate.Event.admitted kind))

/-- A signature of this kind of request is used while its timestamp is in order, by its own reading
and by those that records have been forgotten by. -/
def InTime (kind : AccessKind) (pre : List gate.Event) (o : Op) : Prop :=
  match o.call with
  | .useSignature now .. => ∀ deadline, gate.deadline kind o.request = some deadline →
    ∀ t ∈ purges pre ++ [now], t ≤ deadline
  | _ => True

theorem purges_snoc (pre : List gate.Event) (ev : gate.Event) :
    purges (pre ++ [ev]) = purges pre ++ ev.purges.toList := by
  unfold purges
  rw [List.filterMap_append]
  cases h : ev.purges <;> simp [h]

theorem admitted_snoc (kind : AccessKind) (pre : List gate.Event) (ev : gate.Event) :
    (pre ++ [ev]).filterMap (Gate.Event.admitted kind) =
      pre.filterMap (Gate.Event.admitted kind) ++ (ev.admitted kind).toList := by
  rw [List.filterMap_append]
  cases h : ev.admitted kind <;> simp [h]

/-- A call that uses no signature. -/
theorem Guarded.other {kind : AccessKind} {pre : List gate.Event} {ev : gate.Event}
    (h : Guarded kind ev.before pre) (hpurges : ev.purges = none)
    (hadmitted : ev.admitted kind = none)
    (hsame : ev.after.nonces = ev.before.nonces) : Guarded kind ev.after (pre ++ [ev]) := by
  unfold Guarded at h ⊢
  rw [purges_snoc, admitted_snoc, hpurges, hadmitted, hsame]
  simpa using h

theorem mem_purge {now : Int} {tenantId : String} {nonces : List Nonce} {n : Nonce} :
    n ∈ purge now tenantId nonces ↔ n ∈ nonces ∧ ¬ (n.tenantId = tenantId ∧ n.expiresAt < now) := by
  unfold purge
  rw [List.mem_filter, decide_eq_true_eq]

/-- The record that a use of a signature makes. -/
def Gate.nonce (gate : Gate) (now : Int) (tenantId signature : String) (ttl : Int) : Nonce :=
  ⟨tenantId, gate.textHash signature, now + seconds ttl⟩

/-- A signature is new when no record of it is kept, and is kept from then on. -/
theorem Gate.useSignature_cases (gate : Gate) (nonces : List Nonce) (now : Int)
    (tenantId signature : String) (ttl : Int) :
    gate.useSignature nonces now tenantId signature ttl = (false, purge now tenantId nonces) ∨
      (∀ n ∈ purge now tenantId nonces,
        (n.tenantId, n.signatureHash) ≠ (tenantId, gate.textHash signature)) ∧
      gate.useSignature nonces now tenantId signature ttl =
        (true, purge now tenantId nonces ++ [gate.nonce now tenantId signature ttl]) := by
  unfold useSignature
  dsimp only
  split
  · exact .inl rfl
  · rename_i hnone
    refine .inr ⟨fun n hn heq => hnone (List.any_eq_true.mpr ⟨n, hn, ?_⟩), rfl⟩
    simpa [Prod.ext_iff] using heq

/-- What the transaction answers and leaves. -/
theorem Gate.commit_cases {now : Int} {tenantId signature : String} {ttl : Int} {ch : Choice}
    {s s' : Server} {answer : Except Exn Bool}
    (h : gate.commit ch s now tenantId signature ttl = (answer, s')) :
    ch.fails = true ∧ answer = .error .crash ∧ s'.nonces = s.nonces ∨
      ch.fails = false ∧ s'.nonces = (gate.useSignature s.nonces now tenantId signature ttl).2 ∧
        (answer = .error .crash ∨
          answer = .ok (gate.useSignature s.nonces now tenantId signature ttl).1) := by
  unfold commit at h
  by_cases hfails : ch.fails = true
  · rw [if_pos hfails] at h
    cases h
    exact .inl ⟨hfails, rfl, rfl⟩
  rw [if_neg hfails] at h
  dsimp only at h
  refine .inr ⟨(Bool.not_eq_true _).mp hfails, ?_⟩
  by_cases hlost : ch.lost = true
  · rw [if_pos hlost] at h
    cases h
    exact ⟨rfl, .inl rfl⟩
  · rw [if_neg hlost] at h
    cases h
    exact ⟨rfl, .inr rfl⟩

theorem Guarded.step {kind : AccessKind} {pre : List gate.Event} {ev : gate.Event}
    (h : Guarded kind ev.before pre)
    (hrun : gate.run ev.op.call ev.choice ev.before = (ev.answer, ev.after))
    (htime : InTime kind pre ev.op)
    (hlong : ∀ now tenantId signature ttl,
      ev.op.call = .useSignature now tenantId signature ttl → tenantId = gate.tenantId ∧
        ∀ deadline, gate.deadline kind ev.op.request = some deadline →
          deadline ≤ now + seconds ttl) :
    Guarded kind ev.after (pre ++ [ev]) := by
  obtain ⟨thread, ⟨request, call⟩, ch, before, answer, after⟩ := ev
  cases call with
  | useSignature now tenantId signature ttl =>
    obtain ⟨rfl, hlong⟩ := hlong now tenantId signature ttl rfl
    rcases Gate.commit_cases hrun with ⟨hfails, rfl, hsame⟩ | ⟨hfails, hnonces, hanswer⟩
    · exact h.other (if_pos hfails) rfl hsame
    have hpurges : Gate.Event.purges ⟨thread,
        ⟨request, .useSignature now gate.tenantId signature ttl⟩, ch, before, answer, after⟩ =
          some now := if_neg (Bool.eq_false_iff.mp hfails)
    have hforget : gate.guard.Sound (purges pre ++ [now]) (purge now gate.tenantId before.nonces)
        (pre.filterMap (Gate.Event.admitted kind)) := h.forget fun n hn hlasts =>
      mem_purge.mpr ⟨hn, fun hold => absurd hold.2 (not_lt.mpr hlasts)⟩
    have hgrow : ∀ n ∈ purge now gate.tenantId before.nonces, n ∈ purge now gate.tenantId
        before.nonces ++ [gate.nonce now gate.tenantId signature ttl] :=
      fun n hn => List.mem_append_left _ hn
    unfold Guarded
    rw [purges_snoc, admitted_snoc, hpurges]
    dsimp only at hnonces ⊢
    rw [hnonces]
    rcases gate.useSignature_cases before.nonces now gate.tenantId signature ttl with
      hold | ⟨hnew, hused⟩
    · rw [hold] at hanswer ⊢
      rcases hanswer with rfl | rfl <;> simpa [Gate.Event.admitted] using hforget
    rw [hused] at hanswer ⊢
    rcases hanswer with rfl | rfl
    · simpa [Gate.Event.admitted] using hforget.grow hgrow
    cases hdeadline : gate.deadline kind request with
    | none => simpa [Gate.Event.admitted, hdeadline] using hforget.grow hgrow
    | some deadline =>
      have hbefore : ∀ t ∈ purges pre ++ [now], t ≤ deadline := htime deadline hdeadline
      have hkept : gate.guard.Covered (purge now gate.tenantId before.nonces ++
          [gate.nonce now gate.tenantId signature ttl]) ⟨thread, signature, deadline⟩ :=
        ⟨gate.nonce now gate.tenantId signature ttl, by simp, rfl, fun t ht =>
          le_trans ht (hlong deadline hdeadline)⟩
      have haccept := Guard.Sound.accept (a := (⟨thread, signature, deadline⟩ : Admitted)) hforget
        hnew hbefore hgrow hkept
      simpa [Gate.Event.admitted, hdeadline] using haccept
  | time => exact h.other rfl rfl (congrArg (fun r => r.2.nonces) hrun).symm
  | utcnow => exact h.other rfl rfl (congrArg (fun r => r.2.nonces) hrun).symm
  | body => exact h.other rfl rfl (congrArg (fun r => r.2.nonces) hrun).symm
  | runnerById a b => exact h.other rfl rfl (congrArg (fun r => r.2.nonces) hrun).symm
  | runnerByKey a b => exact h.other rfl rfl (congrArg (fun r => r.2.nonces) hrun).symm
  | handle a b => exact h.other rfl rfl (congrArg (fun r => r.2.nonces) hrun).symm

/-! ## What has been accepted -/

/-- The timestamp was not ahead of the clock by more than it may be off. -/
def NotAhead (gate : Gate) (kind : AccessKind) (o : Op) : Prop :=
  match o.call with
  | .useSignature now .. => ∀ deadline, gate.deadline kind o.request = some deadline →
    deadline ≤ now + seconds (2 * gate.skew kind)
  | _ => True

theorem NotAhead.use {kind : AccessKind} {o : Op} (h : NotAhead gate kind o) {now : Int}
    {tenantId signature : String} {ttl deadline : Int}
    (hcall : o.call = .useSignature now tenantId signature ttl)
    (hdeadline : gate.deadline kind o.request = some deadline) :
    deadline ≤ now + seconds (2 * gate.skew kind) := by
  unfold NotAhead at h
  rw [hcall] at h
  exact h deadline hdeadline

theorem Gate.deadline_eq_some {kind : AccessKind} {request : Request} {deadline : Int} :
    gate.deadline kind request = some deadline ↔ request.access = kind ∧
      ∃ sentAt, parseInt request.timestamp = some sentAt ∧
        seconds (sentAt + gate.skew kind) = deadline := by
  unfold Gate.deadline
  by_cases hkind : request.access = kind
  · rw [if_pos hkind, Option.map_eq_some_iff]
    exact ⟨fun h => ⟨hkind, h⟩, fun h => h.2⟩
  · rw [if_neg hkind]
    exact ⟨fun h => (nomatch h), fun h => absurd h.1 hkind⟩

/-- What is known of each event of a run. -/
theorem events_of_reaches {cond : (server gate).recorded.Cond} {s : Server}
    {d : Config Calls Exn (Server × List gate.Event)}
    (hr : (server gate).recorded.Reaches cond (Config.idle (s, [])) d) :
    System.Each (fun pre (ev : gate.Event) => Allowed gate (System.own ev.thread pre) ev.op ∧
      cond ev.thread ev.op ev.choice (ev.before, pre) ∧
      gate.run ev.op.call ev.choice ev.before = (ev.answer, ev.after)) d.shared.2 := by
  have hallowed : System.Each (fun pre (ev : gate.Event) =>
      Allowed gate (System.own ev.thread pre) ev.op) d.shared.2 :=
    System.recorded_follows (by rintro _ ⟨request, rfl⟩; exact serve_follows request) hr
  intro pre ev post hsplit
  obtain ⟨hcond, hrun⟩ := System.recorded_each hr pre ev post hsplit
  exact ⟨hallowed pre ev post hsplit, hcond, Option.some_inj.mp hrun⟩

/-- **Each signature is new once**, in a run that uses them in time. -/
theorem guarded_of_recorded {kind : AccessKind} {cond : (server gate).recorded.Cond} {s : Server}
    {d : Config Calls Exn (Server × List gate.Event)}
    (hr : (server gate).recorded.Reaches cond (Config.idle (s, [])) d)
    (htime : System.Each (fun pre (ev : gate.Event) =>
      InTime kind pre ev.op ∧ NotAhead gate kind ev.op) d.shared.2) :
    Guarded kind d.shared.1 d.shared.2 := by
  refine (System.recorded_induction (I := Guarded kind) hr Guard.Sound.start
    fun pre ev post hsplit h => ?_).1
  obtain ⟨hallowed, -, hrun⟩ := events_of_reaches hr pre ev post hsplit
  obtain ⟨hintime, hahead⟩ := htime pre ev post hsplit
  refine h.step hrun hintime fun now tenantId signature ttl hcall => ?_
  obtain ⟨htenant, -, httl, -⟩ := hallowed.use hcall
  refine ⟨htenant, fun deadline hdeadline => ?_⟩
  rw [httl, (Gate.deadline_eq_some.mp hdeadline).1]
  exact hahead.use hcall hdeadline

theorem mem_of_earlier {tr pre post : List gate.Event} {ev e : gate.Event}
    (hsplit : tr = pre ++ ev :: post) (he : e ∈ pre) : e ∈ tr :=
  hsplit ▸ List.mem_append_left _ he

/-- What is handled for a request of the kind, and its body. -/
def Gate.Event.handles (kind : AccessKind) (ev : gate.Event) :
    Option (Request × Option RunnerIdentity × Bytes) :=
  match ev.op.call with
  | .handle runner (some body) =>
    if ev.op.request.access = kind then some (ev.op.request, runner, body) else none
  | _ => none

theorem Gate.Event.handles_eq_some {kind : AccessKind} {ev : gate.Event}
    {x : Request × Option RunnerIdentity × Bytes} (h : ev.handles kind = some x) :
    ev.op.request = x.1 ∧ x.1.access = kind ∧ ev.op.call = .handle x.2.1 (some x.2.2) := by
  unfold handles at h
  split at h
  · rename_i runner body hcall
    split at h
    · rename_i hkind
      cases h
      exact ⟨rfl, hkind, hcall⟩
    · cases h
  · cases h

/-- What is handled was signed, and its signature had been found to be new by the same thread. -/
theorem handled_used {kind : AccessKind} {cond : (server gate).recorded.Cond} {s : Server}
    {d : Config Calls Exn (Server × List gate.Event)}
    (hr : (server gate).recorded.Reaches cond (Config.idle (s, [])) d) {pre post : List gate.Event}
    {ev : gate.Event} (hsplit : d.shared.2 = pre ++ ev :: post)
    {x : Request × Option RunnerIdentity × Bytes} (hx : ev.handles kind = some x) :
    Unhandled (System.own ev.thread pre) ∧ gate.Signed x.1 x.2.1 x.2.2 ∧
      ∃ pre' post' ch before after now, d.shared.2 = pre' ++ (⟨ev.thread,
        (gate.used x.1 now).op, ch, before, (gate.used x.1 now).answer, after⟩ : gate.Event) ::
          post' := by
  obtain ⟨hrequest, -, hcall⟩ := Gate.Event.handles_eq_some hx
  obtain ⟨hallowed, -⟩ := events_of_reaches hr pre ev post hsplit
  obtain ⟨hunhandled, hnone | ⟨body, now, hbody, hsigned, hused⟩⟩ := hallowed.handle hcall
  · cases hnone
  cases hbody
  rw [hrequest] at hsigned hused
  obtain ⟨ch, before, after, hmem⟩ := System.mem_own hused
  obtain ⟨pre', post', hsplit'⟩ := List.append_of_mem (mem_of_earlier hsplit hmem)
  exact ⟨hunhandled, hsigned, pre', post', ch, before, after, now, hsplit'⟩

/-- **Two requests that are accepted** with the same signature and the same timestamp are one. -/
theorem handled_once {kind : AccessKind} {cond : (server gate).recorded.Cond} {s : Server}
    {d : Config Calls Exn (Server × List gate.Event)}
    (hr : (server gate).recorded.Reaches cond (Config.idle (s, [])) d)
    (htime : System.Each (fun pre (ev : gate.Event) =>
      InTime kind pre ev.op ∧ NotAhead gate kind ev.op) d.shared.2) {pre post : List gate.Event}
    {e ev : gate.Event} (hsplit : d.shared.2 = pre ++ ev :: post) (he : e ∈ pre)
    {x x' : Request × Option RunnerIdentity × Bytes} (hx : e.handles kind = some x)
    (hx' : ev.handles kind = some x') :
    ¬ (x.1.signature = x'.1.signature ∧ x.1.timestamp = x'.1.timestamp) := by
  rintro ⟨hsignature, htimestamp⟩
  have hadmitted : ∀ {pre post : List gate.Event} {ev : gate.Event}
      {x : Request × Option RunnerIdentity × Bytes}, d.shared.2 = pre ++ ev :: post →
      ev.handles kind = some x → ∃ sentAt, parseInt x.1.timestamp = some sentAt ∧
        (⟨ev.thread, x.1.signature, seconds (sentAt + gate.skew kind)⟩ : Admitted) ∈
          d.shared.2.filterMap (Gate.Event.admitted kind) := by
    intro pre post ev x hsplit hx
    obtain ⟨-, -, pre', post', ch, before, after, now, hsplit'⟩ := handled_used hr hsplit hx
    obtain ⟨hallowed, -⟩ := events_of_reaches hr _ _ _ hsplit'
    obtain ⟨-, -, -, ⟨-, sentAt, -, hsent, -⟩, -⟩ := hallowed.use rfl
    refine ⟨sentAt, hsent, List.mem_filterMap.mpr
      ⟨_, hsplit' ▸ List.mem_append_right _ (List.mem_cons_self ..), ?_⟩⟩
    have hdeadline : gate.deadline kind x.1 = some (seconds (sentAt + gate.skew kind)) :=
      Gate.deadline_eq_some.mpr ⟨(Gate.Event.handles_eq_some hx).2.1, sentAt, hsent, rfl⟩
    show (gate.deadline kind x.1).map _ = _
    rw [hdeadline]
    rfl
  obtain ⟨pre₁, post₁, hsplit₁⟩ := List.append_of_mem (mem_of_earlier hsplit he)
  obtain ⟨sentAt, hsent, hmem⟩ := hadmitted hsplit₁ hx
  obtain ⟨sentAt', hsent', hmem'⟩ := hadmitted hsplit hx'
  rw [htimestamp, hsent'] at hsent
  cases hsent
  have hguarded : gate.guard.Sound _ _ _ := guarded_of_recorded hr htime
  have hone := hguarded.unique hmem hmem' (by simp [Gate.guard, hsignature]) fun t => Iff.rfl
  have hthread : e.thread = ev.thread := congrArg Admitted.thread hone
  -- A thread that has handled a request handles no other.
  have hdone : (⟨e.op, e.answer⟩ : Calls.Done) ∈ System.own ev.thread pre :=
    List.mem_map.mpr ⟨e, List.mem_filter.mpr ⟨he, by simpa using hthread⟩, rfl⟩
  exact (handled_used hr hsplit hx').1 _ hdone _ _ (Gate.Event.handles_eq_some hx).2.2

/-! ## Signed webhooks -/

/-- The deliveries that have been accepted by their signatures: what was signed of them. -/
def acceptedDeliveries (tr : List gate.Event) : List (String × Bytes) :=
  tr.filterMap fun ev => (ev.handles .webhook).map fun x => (x.1.timestamp, x.2.2)

/-- The clock does not step back. -/
def Nondecreasing (s : Server) (o : Op) (ch : Choice) : Prop :=
  match o.call with
  | .time | .utcnow => s.clock ≤ ch.reading
  | _ => True

/-- A reading of the clock. -/
def Gate.Event.reading : gate.Event → Option Int
  | ⟨_, ⟨_, .time⟩, _, _, (reading : Int), _⟩ => some reading
  | ⟨_, ⟨_, .utcnow⟩, _, _, (reading : Int), _⟩ => some reading
  | _ => none

/-- The clock that a call leaves. -/
theorem Gate.run_clock (gate : Gate) (call : Call) (ch : Choice) (s : Server) :
    (gate.run call ch s).2.clock = match call with
      | .time | .utcnow => ch.reading
      | _ => s.clock := by
  cases call with
  | useSignature now tenantId signature ttl =>
    show (gate.commit ch s now tenantId signature ttl).2.clock = s.clock
    unfold commit
    split <;> rfl
  | _ => rfl

/-- A clock that does not step back is ahead of what has been read. -/
theorem reading_le {cond : (server gate).recorded.Cond} {s : Server}
    {d : Config Calls Exn (Server × List gate.Event)}
    (hr : (server gate).recorded.Reaches cond (Config.idle (s, [])) d)
    (hclock : System.Each (fun _ (ev : gate.Event) => Nondecreasing ev.before ev.op ev.choice)
      d.shared.2) :
    System.Each (fun pre (ev : gate.Event) => ∀ e ∈ pre, ∀ x, Gate.Event.reading e = some x →
      x ≤ ev.before.clock) d.shared.2 := by
  refine (System.recorded_induction (I := fun (s : Server) (tr : List gate.Event) =>
    ∀ e ∈ tr, ∀ x, Gate.Event.reading e = some x → x ≤ s.clock) hr (by simp)
    fun pre ev post hsplit h => ?_).2
  have hle := hclock pre ev post hsplit
  obtain ⟨-, -, hrun⟩ := events_of_reaches hr pre ev post hsplit
  have hafter : _ = ev.after.clock := (gate.run_clock ev.op.call ev.choice ev.before).symm.trans
    (congrArg (fun r => r.2.clock) hrun)
  have hstep : ev.before.clock ≤ ev.after.clock ∧
      ∀ x, Gate.Event.reading ev = some x → x ≤ ev.after.clock := by
    obtain ⟨thread, ⟨request, call⟩, ch, before, answer, after⟩ := ev
    cases call with
    | time =>
      have hanswer : ch.reading = answer := congrArg Prod.fst hrun
      refine ⟨hle.trans (le_of_eq hafter), fun x hx => le_of_eq ?_⟩
      exact (Option.some_inj.mp hx).symm.trans (hanswer.symm.trans hafter)
    | utcnow =>
      have hanswer : ch.reading = answer := congrArg Prod.fst hrun
      refine ⟨hle.trans (le_of_eq hafter), fun x hx => le_of_eq ?_⟩
      exact (Option.some_inj.mp hx).symm.trans (hanswer.symm.trans hafter)
    | _ => exact ⟨le_of_eq hafter, fun _ hx => nomatch hx⟩
  intro e he x hx
  rcases List.mem_append.mp he with he | he
  · exact le_trans (h e he x hx) hstep.1
  · cases List.mem_singleton.mp he
    exact hstep.2 x hx

/-- Under such a clock a timestamp that was in order is not ahead of it later. -/
theorem notAhead_of_clock {cond : (server gate).recorded.Cond} {s : Server}
    {d : Config Calls Exn (Server × List gate.Event)}
    (hr : (server gate).recorded.Reaches cond (Config.idle (s, [])) d)
    (hclock : System.Each (fun _ (ev : gate.Event) => Nondecreasing ev.before ev.op ev.choice)
      d.shared.2) (kind : AccessKind) :
    System.Each (fun _ (ev : gate.Event) => NotAhead gate kind ev.op) d.shared.2 := by
  rintro pre ⟨thread, ⟨request, call⟩, ch, before, answer, after⟩ post hsplit
  obtain ⟨hallowed, -⟩ := events_of_reaches hr _ _ _ hsplit
  cases call with
  | useSignature now tenantId signature ttl =>
    intro deadline hdeadline
    obtain ⟨hkind, sentAt, hsent, rfl⟩ := Gate.deadline_eq_some.mp hdeadline
    -- The reading that the signature is used with, and before it the one of the check.
    obtain ⟨-, -, -, -, hnow⟩ := hallowed.use rfl
    obtain ⟨ch₁, before₁, after₁, hmem₁⟩ := System.mem_own hnow
    obtain ⟨pre₁, post₁, hsplit₁⟩ := List.append_of_mem (mem_of_earlier hsplit hmem₁)
    obtain ⟨hallowed₁, -, hrun₁⟩ := events_of_reaches hr _ _ _ hsplit₁
    obtain ⟨reading, sentAt', hreading, hsent', habs⟩ := hallowed₁.clock rfl
    rw [hsent] at hsent'
    cases hsent'
    obtain ⟨ch₂, before₂, after₂, hmem₂⟩ := System.mem_own hreading
    have hpast : reading ≤ before₁.clock := reading_le hr hclock _ _ _ hsplit₁ _ hmem₂ _ rfl
    have hstep : before₁.clock ≤ ch₁.reading := hclock _ _ _ hsplit₁
    have hread : ch₁.reading = now := congrArg Prod.fst hrun₁
    rw [hkind] at habs
    have hbounds := abs_le.mp habs
    unfold seconds at hbounds ⊢
    omega
  | _ => exact trivial

/-- **A signed delivery is accepted once** where its signature is recorded, in every case, while
its timestamp is in order. -/
theorem deliveries_accepted_once (gate : Gate) (s : Server)
    (d : Config Calls Exn (Server × List gate.Event))
    (hr : (server gate).recorded.Reaches
      (fun _ o ch st => Nondecreasing st.1 o ch ∧ InTime .webhook st.2 o) (Config.idle (s, [])) d) :
    (acceptedDeliveries d.shared.2).Nodup := by
  have hcond := System.recorded_each hr
  have hahead := notAhead_of_clock hr (fun pre ev post hsplit => (hcond pre ev post hsplit).1.1)
    .webhook
  have htime : System.Each (fun pre (ev : gate.Event) =>
      InTime .webhook pre ev.op ∧ NotAhead gate .webhook ev.op) d.shared.2 :=
    fun pre ev post hsplit => ⟨(hcond pre ev post hsplit).1.2, hahead pre ev post hsplit⟩
  unfold acceptedDeliveries
  refine List.pairwise_filterMap.mpr (System.Each.pairwise fun pre ev post hsplit e he => ?_)
  rintro delivery hdelivery delivery' hdelivery' rfl
  obtain ⟨x, hx, hitem⟩ := Option.map_eq_some_iff.mp hdelivery
  obtain ⟨x', hx', hitem'⟩ := Option.map_eq_some_iff.mp hdelivery'
  obtain ⟨htimestamp, hbody⟩ := Prod.mk.inj (hitem.trans hitem'.symm)
  refine handled_once hr htime hsplit he hx hx' ⟨?_, htimestamp⟩
  -- Both signatures are the one of the timestamp and the body.
  obtain ⟨pre₁, post₁, hsplit₁⟩ := List.append_of_mem (mem_of_earlier hsplit he)
  obtain ⟨-, hsigned, -⟩ := handled_used hr hsplit₁ hx
  obtain ⟨-, hsigned', -⟩ := handled_used hr hsplit hx'
  unfold Gate.Signed at hsigned hsigned'
  rw [(Gate.Event.handles_eq_some hx).2.1] at hsigned
  rw [(Gate.Event.handles_eq_some hx').2.1] at hsigned'
  dsimp only at hsigned hsigned'
  rw [htimestamp, hbody, hsigned'] at hsigned
  exact (Option.some_inj.mp hsigned).symm

/-! ### A run in which a delivery is accepted twice -/

instance (s : Server) (o : Op) (ch : Choice) : Decidable (Nondecreasing s o ch) := by
  unfold Nondecreasing
  split <;> infer_instance

instance (kind : AccessKind) (pre : List gate.Event) (o : Op) : Decidable (InTime kind pre o) := by
  unfold InTime
  split
  · rename_i now _ _ _ _
    cases gate.deadline kind o.request with
    | none => exact .isTrue fun _ h => nomatch h
    | some deadline =>
      exact decidable_of_iff (∀ t ∈ purges pre ++ [now], t ≤ deadline)
        ⟨fun h _ hd => Option.some_inj.mp hd ▸ h, fun h => h deadline rfl⟩
  · infer_instance

/-- The bytes of a text in Latin-1. -/
def latin1 (text : String) : Bytes := text.toList.map fun c => UInt8.ofNat c.toNat

/-- A gate whose signatures show what is signed. -/
def sampleGate : Gate where
  webhookOpen := false
  webhookSecret := "secret"
  webhookMaxSkewSeconds := 300
  tenantId := "tenant"
  hmac secret message := secret ++ toHex message
  sha256 := toHex
  textHash := id
  accepts publicKey text signature := signature = publicKey ++ latin1 text
  parsePublic text := some (latin1 text)
  publicText publicKey := String.ofList (publicKey.map fun b => Char.ofNat b.toNat)
  parseIdentity _ := some ("tenant", "runner")

/-- A delivery of `{}`, signed at 1000. -/
def sampleDelivery : Request where
  access := .webhook
  method := "POST"
  path := "/webhook/incident"
  headers := [(webhookTimestampHeader, "1000"),
    (webhookSignatureHeader, (sampleGate.signWebhook "1000" [123, 125]).getD "")]

theorem serves (request : Request) :
    (server sampleGate).recorded.Entry (serve sampleGate request) := ⟨request, rfl⟩

/-- Two requests, and the steps of their threads. -/
def sampleMoves (request request' : Request) (steps : List (Nat × Choice)) :
    List (server sampleGate).recorded.Move :=
  .start (serve sampleGate request) :: .start (serve sampleGate request') ::
    steps.map fun x => .op x.1 x.2

theorem starts_sampleMoves (request request' : Request) (steps : List (Nat × Choice)) :
    (server sampleGate).recorded.Starts (sampleMoves request request' steps) :=
  .start (serves request) (.start (serves request') .each)

/-- A played schedule is a run. -/
theorem played {P : Op → Choice → Server × List sampleGate.Event → Prop}
    [inst : ∀ (o : Op) (ch : Choice) (st : Server × List sampleGate.Event), Decidable (P o ch st)]
    {request request' : Request}
    {steps : List (Nat × Choice)} {d : Config Calls Exn (Server × List sampleGate.Event)}
    (h : (server sampleGate).recorded.playIf (fun _ (o : Op) (ch : Choice) st => decide (P o ch st))
      (Config.idle (⟨0, []⟩, [])) (sampleMoves request request' steps) = some d) :
    (server sampleGate).recorded.Reaches (fun _ o ch st => P o ch st)
      (Config.idle (⟨0, []⟩, [])) d :=
  System.playIf_reaches _ (fun _ o ch st hok => @of_decide_eq_true _ (inst o ch st) hok)
    (starts_sampleMoves request request' steps) h

/-- The delivery is checked, and its body read. -/
def delivered (t : Nat) : List (Nat × Choice) :=
  [(t, { reading := seconds 1000 }), (t, { body := .ok [123, 125] })]

/-- A signature is used. -/
def usedAt (t : Nat) (n : Int) : List (Nat × Choice) := [(t, { reading := seconds n }), (t, {})]

def handled (t : Nat) : List (Nat × Choice) := [(t, {})]

theorem deliveries_accepted_once_sample :
    ∃ d : Config Calls Exn (Server × List sampleGate.Event), d.shared.1.nonces.length = 1 ∧
      (acceptedDeliveries d.shared.2).Nodup := by
  have hplay : ((server sampleGate).recorded.playIf
      (fun _ (o : Op) (ch : Choice) st => decide (Nondecreasing st.1 o ch ∧ InTime .webhook st.2 o))
      (Config.idle (⟨0, []⟩, []))
      (sampleMoves sampleDelivery sampleDelivery
        (delivered 0 ++ delivered 1 ++ usedAt 0 1000 ++ handled 0 ++ usedAt 1 1300))).map
      (fun d => d.shared.1.nonces.length) = some 1 := by
    decide +kernel
  obtain ⟨d, hd, hends⟩ := Option.map_eq_some_iff.mp hplay
  exact ⟨d, hends, deliveries_accepted_once sampleGate ⟨0, []⟩ d
    (played hd)⟩

/-- **A signed delivery can be accepted twice.**  Two copies are found to be in time; the body of
the second comes when the record of the first has expired. -/
theorem deliveries_accepted_again : ¬ ∀ (gate : Gate) (s : Server)
    (d : Config Calls Exn (Server × List gate.Event)),
    (server gate).recorded.Reaches (fun _ o ch st => Nondecreasing st.1 o ch)
      (Config.idle (s, [])) d →
    (acceptedDeliveries d.shared.2).Nodup := by
  intro hall
  have hplay : ((server sampleGate).recorded.playIf
      (fun _ (o : Op) (ch : Choice) st => decide (Nondecreasing st.1 o ch))
      (Config.idle (⟨0, []⟩, []))
      (sampleMoves sampleDelivery sampleDelivery
        (delivered 0 ++ delivered 1 ++ usedAt 0 1000 ++ handled 0 ++ usedAt 1 1601 ++
          handled 1))).map (fun d => @acceptedDeliveries sampleGate d.shared.2) =
        some [("1000", [123, 125]), ("1000", [123, 125])] := by
    decide +kernel
  obtain ⟨d, hd, hends⟩ := Option.map_eq_some_iff.mp hplay
  have honce := hall sampleGate ⟨0, []⟩ d
    (played hd)
  rw [hends] at honce
  exact absurd honce (by decide)

/-! ## Signed requests of the runners -/

/-- The requests that have been accepted: the key, and what was signed with it. -/
def acceptedRequests (tr : List gate.Event) :
    List (Bytes × String × String × String × Bytes) :=
  tr.filterMap fun ev => (ev.handles .runner).bind fun x => x.2.1.map fun who =>
    (who.publicKey, x.1.method.toUpper, x.1.path, x.1.timestamp, x.2.2)

/-- The signature that is used for a runner's request is spelled as it was written. -/
def SpelledOut (o : Op) : Prop :=
  match o.call with
  | .useSignature _ _ signature _ => o.request.access = .runner → Spelled signature
  | _ => True

theorem SpelledOut.use {o : Op} (h : SpelledOut o) {now : Int} {tenantId signature : String}
    {ttl : Int} (hcall : o.call = .useSignature now tenantId signature ttl)
    (hkind : o.request.access = .runner) : Spelled signature := by
  unfold SpelledOut at h
  rw [hcall] at h
  exact h hkind

/-- Nobody but the key's owner can sign, and the owner signs a text in one way. -/
def Unforgeable (gate : Gate) : Prop :=
  ∀ publicKey text signature signature', gate.accepts publicKey text signature = true →
    gate.accepts publicKey text signature' = true → signature = signature'

/-- **A signed request is accepted once** where its signature is recorded, in every case, in the
spelling it was written in and while its timestamp is in order. -/
theorem requests_accepted_once (gate : Gate) (hsign : Unforgeable gate) (s : Server)
    (d : Config Calls Exn (Server × List gate.Event))
    (hr : (server gate).recorded.Reaches
      (fun _ o _ st => InTime .runner st.2 o ∧ NotAhead gate .runner o ∧ SpelledOut o)
      (Config.idle (s, [])) d) :
    (acceptedRequests d.shared.2).Nodup := by
  have hcond := System.recorded_each hr
  have htime : System.Each (fun pre (ev : gate.Event) =>
      InTime .runner pre ev.op ∧ NotAhead gate .runner ev.op) d.shared.2 :=
    fun pre ev post hsplit => ⟨(hcond pre ev post hsplit).1.1, (hcond pre ev post hsplit).1.2.1⟩
  -- What is accepted bears a signature of its text, spelled as it was written.
  have hgood : ∀ {pre post : List gate.Event} {ev : gate.Event}
      {x : Request × Option RunnerIdentity × Bytes} {who : RunnerIdentity},
      d.shared.2 = pre ++ ev :: post → ev.handles .runner = some x → x.2.1 = some who →
      Spelled x.1.signature ∧ ∃ bytes, fromHex x.1.signature = some bytes ∧
        gate.accepts who.publicKey (requestDomain ++ "\n" ++
          gate.requestMessage x.1.method x.1.path x.1.timestamp x.2.2) bytes = true := by
    intro pre post ev x who hsplit hx hwho
    obtain ⟨-, hsigned, pre', post', ch, before, after, now, hsplit'⟩ := handled_used hr hsplit hx
    have hkind := (Gate.Event.handles_eq_some hx).2.1
    refine ⟨(hcond _ _ _ hsplit').1.2.2.use rfl hkind, ?_⟩
    unfold Gate.Signed at hsigned
    rw [hkind] at hsigned
    obtain ⟨who', hwho', hverify⟩ := hsigned
    rw [hwho] at hwho'
    cases hwho'
    unfold Gate.verify at hverify
    split at hverify
    · rename_i bytes hbytes
      exact ⟨bytes, hbytes, hverify⟩
    · cases hverify
  unfold acceptedRequests
  refine List.pairwise_filterMap.mpr (System.Each.pairwise fun pre ev post hsplit e he => ?_)
  rintro item hitem item' hitem' rfl
  obtain ⟨x, hx, hmap⟩ := Option.bind_eq_some_iff.mp hitem
  obtain ⟨who, hwho, hitem⟩ := Option.map_eq_some_iff.mp hmap
  obtain ⟨x', hx', hmap'⟩ := Option.bind_eq_some_iff.mp hitem'
  obtain ⟨who', hwho', hitem'⟩ := Option.map_eq_some_iff.mp hmap'
  have hsame := hitem.trans hitem'.symm
  simp only [Prod.mk.injEq] at hsame
  obtain ⟨hkey, hmethod, hpath, htimestamp, hbody⟩ := hsame
  obtain ⟨pre₁, post₁, hsplit₁⟩ := List.append_of_mem (mem_of_earlier hsplit he)
  obtain ⟨hspelled, bytes, hbytes, haccepts⟩ := hgood hsplit₁ hx hwho
  obtain ⟨hspelled', bytes', hbytes', haccepts'⟩ := hgood hsplit hx' hwho'
  unfold Gate.requestMessage at haccepts haccepts'
  rw [hkey, hmethod, hpath, htimestamp, hbody] at haccepts
  obtain rfl := hsign _ _ _ _ haccepts haccepts'
  exact handled_once hr htime hsplit he hx hx' ⟨hspelled.eq hspelled' hbytes hbytes', htimestamp⟩

/-! ### A run in which a request is accepted twice -/

instance (kind : AccessKind) (o : Op) : Decidable (NotAhead gate kind o) := by
  unfold NotAhead
  split
  · rename_i now _ _ _ _
    cases gate.deadline kind o.request with
    | none => exact .isTrue fun _ h => nomatch h
    | some deadline =>
      exact decidable_of_iff (deadline ≤ now + seconds (2 * gate.skew kind))
        ⟨fun h _ hd => Option.some_inj.mp hd ▸ h, fun h => h deadline rfl⟩
  · infer_instance

instance (o : Op) : Decidable (SpelledOut o) := by
  unfold SpelledOut
  split <;> infer_instance

theorem sampleGate_unforgeable : Unforgeable sampleGate := by
  intro publicKey text signature signature' h h'
  exact (of_decide_eq_true h).trans (of_decide_eq_true h').symm

/-- A request signed at 1000 with the key `[7]`, in hexadecimal. -/
def sampleSignature : String :=
  "076c312d72756e6e65722d726571756573742d76310a504f53540a2f72756e6e65722f76312f636c61696d0a" ++
    "313030300a3031"

/-- The same in capitals. -/
def capitalSignature : String :=
  "076C312D72756E6E65722D726571756573742D76310A504F53540A2F72756E6E65722F76312F636C61696D0A" ++
    "313030300A3031"

/-- The request, with its signature as it is written here. -/
def sampleRequest (signature : String) : Request where
  access := .runner
  method := "POST"
  path := claimPath
  headers := [(idHeader, "tenant.runner"), (timestampHeader, "1000"), (signatureHeader, signature)]

/-- The request is checked, and its body read. -/
def asked (t : Nat) : List (Nat × Choice) :=
  [(t, { reading := seconds 1000 }),
    (t, { row := .ok (some ⟨"runner", "runner", String.ofList [Char.ofNat 7]⟩) }),
    (t, { body := .ok [1] })]

theorem requests_accepted_once_sample :
    ∃ d : Config Calls Exn (Server × List sampleGate.Event), d.shared.1.nonces.length = 1 ∧
      (acceptedRequests d.shared.2).Nodup := by
  have hplay : ((server sampleGate).recorded.playIf
      (fun _ (o : Op) _ st =>
        decide (InTime .runner st.2 o ∧ NotAhead sampleGate .runner o ∧ SpelledOut o))
      (Config.idle (⟨0, []⟩, []))
      (sampleMoves (sampleRequest sampleSignature) (sampleRequest sampleSignature)
        (asked 0 ++ asked 1 ++ usedAt 0 1000 ++ handled 0 ++ usedAt 1 1060))).map
      (fun d => d.shared.1.nonces.length) = some 1 := by
    decide +kernel
  obtain ⟨d, hd, hends⟩ := Option.map_eq_some_iff.mp hplay
  exact ⟨d, hends, requests_accepted_once sampleGate sampleGate_unforgeable ⟨0, []⟩ d
    (played hd)⟩

/-- **A signed request can be accepted twice**: the second time with its signature in capitals. -/
theorem requests_accepted_again : ¬ ∀ gate : Gate, Unforgeable gate → ∀ (s : Server)
    (d : Config Calls Exn (Server × List gate.Event)),
    (server gate).recorded.Reaches (fun _ _ _ _ => True) (Config.idle (s, [])) d →
    (acceptedRequests d.shared.2).Nodup := by
  intro hall
  have hplay : ((server sampleGate).recorded.play (Config.idle (⟨0, []⟩, []))
      (sampleMoves (sampleRequest sampleSignature) (sampleRequest capitalSignature)
        (asked 0 ++ asked 1 ++ usedAt 0 1000 ++ handled 0 ++ usedAt 1 1000 ++ handled 1))).map
      (fun d => @acceptedRequests sampleGate d.shared.2) =
        some (List.replicate 2 ([7], "POST", claimPath, "1000", [1])) := by
    decide +kernel
  obtain ⟨d, hd, hends⟩ := Option.map_eq_some_iff.mp hplay
  have honce := hall sampleGate sampleGate_unforgeable ⟨0, []⟩ d
    (System.play_reaches _ (starts_sampleMoves _ _ _) hd)
  rw [hends] at honce
  exact absurd honce (by decide)

end Access
end L1Agent
