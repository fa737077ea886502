import L1Agent.Runner.Unmade
import L1Agent.Runner.Wire

/-! # How a write that was made is reported

A runner that has made a write returns its result, and the caller is given what was recorded as the
answer of the call.  Between the two the result is written out and cut to size, posted, recorded and
read again.

An answer that a caller reads for a write that was handed out is one of the runner that was given
the call: another runner's is not recorded, and the control plane does not refuse a write that it
hands out (`not_refused`).  `made_write_told` follows for every run: the caller is told that the
write was made, or that its outcome is not known, when the data of the result can be written, is no
longer than `maxData` and can be read again.  The data of another result is lost on the way, and the
caller is told that the write has failed (`large_result_fails`).  `posted_toWire` says what this
account of the runner has to do with the one of `Runner/Agent.lean`, whose library has no limits.
-/
namespace L1Agent
namespace Dispatch
open Interleaving Handover
open Access (RunnerIdentity)
open Runner (dataOf wireOf maxData)

/-! ## What a runner returns -/

/-- What the `json` library raises. -/
inductive Raise where
  | valueError (message : String)
  /-- Another exception, by the name of its class. -/
  | other (name : String)
  deriving DecidableEq

/-- The `json` library of a runner, which has its limits. -/
structure Writer where
  canonical : Json → Except Raise String
  loads : String → Except Raise Json

/-- `result_to_wire` -/
def Writer.resultToWire (w : Writer) (result : Runner.Result) : Except Raise Json :=
  (w.canonical (dataOf result)).bind fun text =>
    if maxData < text.toList.length then .error (.valueError "the result is too large to return")
    else (w.loads text).map (wireOf result)

/-- What `_make` and `_handle` make of the result of the connector. -/
def Writer.returned (w : Writer) (result : Runner.Result) : Answer :=
  match w.resultToWire result with
  | .ok wire => ⟨"ok", wire⟩
  | .error (.valueError message) => ⟨"error", .obj [("error", .str message)]⟩
  | .error (.other name) => ⟨"error", .obj [("error", .str ("runner error: " ++ name))]⟩

/-- The data of the result comes through. -/
def Writer.Fits (w : Writer) (result : Runner.Result) : Prop :=
  ∃ text data, w.canonical (dataOf result) = .ok text ∧ text.toList.length ≤ maxData ∧
    w.loads text = .ok data

/-- An answer is what the runner returns for the result, in any order of its fields. -/
structure Writer.Posted (w : Writer) (result : Runner.Result) (reply : Answer) : Prop where
  outcome : reply.outcome = (w.returned result).outcome
  fields : ∀ key, (reply.result.get? key).map Json.canonical =
    ((w.returned result).result.get? key).map Json.canonical

variable {w : Writer} {result : Runner.Result}

theorem Writer.returned_ok {text : String} {data : Json}
    (htext : w.canonical (dataOf result) = .ok text) (hlength : text.toList.length ≤ maxData)
    (hdata : w.loads text = .ok data) :
    w.returned result = ⟨"ok", wireOf result data⟩ := by
  have hwire : w.resultToWire result = .ok (wireOf result data) := by
    unfold resultToWire
    rw [htext, Except.bind, if_neg (Nat.not_lt.mpr hlength), hdata, Except.map]
  unfold Writer.returned
  rw [hwire]

theorem Writer.resultToWire_fits {wire : Json} (h : w.resultToWire result = .ok wire) :
    w.Fits result := by
  unfold resultToWire at h
  cases htext : w.canonical (dataOf result) with
  | error e =>
    rw [htext] at h
    cases h
  | ok text =>
    rw [htext, Except.bind] at h
    split_ifs at h with hlarge
    cases hdata : w.loads text with
    | error e =>
      rw [hdata] at h
      cases h
    | ok data => exact ⟨text, data, htext, Nat.le_of_not_lt hlarge, hdata⟩

theorem Writer.returned_error (h : ¬ w.Fits result) : (w.returned result).outcome = "error" := by
  unfold Writer.returned
  cases hwire : w.resultToWire result with
  | ok wire => exact absurd (Writer.resultToWire_fits hwire) h
  | error e => cases e <;> rfl

/-- With a library that has no limits, the runner's own account of the result is posted. -/
theorem posted_toWire {agent : Runner.Site}
    (hlibrary : ∀ v, ∃ text, w.canonical v = .ok text ∧
      text.toList.length = agent.canonicalLength v ∧ w.loads text = .ok v.canonical) :
    (∀ wire, Runner.toWire agent result = .ok wire → w.Posted result ⟨"ok", wire⟩) ∧
      ∀ e, Runner.toWire agent result = .error e → w.Posted result
        ⟨"error", (Runner.without "error" "the result is too large to return").2⟩ := by
  obtain ⟨text, htext, hlength, hloads⟩ := hlibrary (dataOf result)
  by_cases hlarge : maxData < text.toList.length
  · have htoo : Runner.toWire agent result = .error (.other "ValueError") :=
      if_pos (hlength ▸ hlarge)
    have hreturned : w.returned result =
        ⟨"error", .obj [("error", .str "the result is too large to return")]⟩ := by
      unfold Writer.returned Writer.resultToWire
      rw [htext, Except.bind, if_pos hlarge]
    rw [htoo]
    refine ⟨by rintro _ ⟨⟩, fun _ _ => ?_⟩
    constructor <;> rw [hreturned]
    exact fun _ => rfl
  · have hsent : Runner.toWire agent result = .ok (wireOf result (dataOf result)) :=
      if_neg (hlength ▸ hlarge)
    have hreturned := Writer.returned_ok htext (Nat.le_of_not_lt hlarge) hloads
    rw [hsent]
    refine ⟨?_, by rintro _ ⟨⟩⟩
    rintro _ ⟨⟩
    constructor <;> rw [hreturned]
    intro key
    by_cases hkey : key = "data"
    · subst hkey
      simp [wireOf, Json.get?, List.lookup_cons, Json.canonical_canonical]
    · simp [wireOf, Json.get?, List.lookup_cons, beq_false_of_ne hkey]

variable {site : Site}

theorem resultOf_ok {reply : Answer} (h : reply.outcome = "ok") :
    resultOf site reply = .ok (resultFromWire site reply.result) := by
  unfold resultOf raiseFor
  rw [h]
  rfl

theorem resultOf_error {reply : Answer} (h : reply.outcome = "error") :
    ∃ told, resultOf site reply = .ok told ∧ told.success = false := by
  unfold resultOf raiseFor
  rw [h]
  exact ⟨_, rfl, rfl⟩

/-- **What the caller makes of the answer**: a success when the data has come through. -/
theorem Writer.Posted.told {reply : Answer} (h : w.Posted result reply)
    (hmade : result.success = true) :
    ∃ told, resultOf site reply = .ok told ∧ (told.success = true ↔ w.Fits result) := by
  by_cases hfits : w.Fits result
  · obtain ⟨text, data, htext, hlength, hdata⟩ := id hfits
    have hreturned := Writer.returned_ok htext hlength hdata
    have houtcome := h.outcome
    have hsuccess := h.fields "success"
    rw [hreturned] at houtcome hsuccess
    have hsent : (wireOf result data).get? "success" = some (.bool true) := by
      simp [wireOf, hmade, Json.get?]
    rw [hsent] at hsuccess
    obtain ⟨v, hv, hcanonical⟩ := Option.map_eq_some_iff.mp hsuccess
    have hbool : v = .bool true := by
      cases v <;> cases hcanonical
      rfl
    refine ⟨_, resultOf_ok houtcome, iff_of_true ?_ hfits⟩
    unfold resultFromWire
    rw [hv, hbool]
  · obtain ⟨told, htold, hfailed⟩ :=
      @resultOf_error site _ (h.outcome.trans (Writer.returned_error hfits))
    exact ⟨told, htold, iff_of_false (by simp [hfailed]) hfits⟩

/-! ## Whose the answer is -/

variable {s : State} {tr pre : List (plane site).Event} {ev : (plane site).Event}

section Events
variable (hkept : Kept s tr) (heach : System.Each Happened tr)

include hkept heach in
/-- A call that is handed out is taken for the runner that is given it. -/
theorem holder_of_handed {x : RunnerIdentity × Claimed} (hx : x ∈ handedOut tr)
    {claim : (plane site).Event} (hclaim : claim ∈ tr) {runnerId : String}
    (htake : .take (some runnerId) ∈ did x.2.id claim) : runnerId = x.1.id := by
  obtain ⟨ev, hev, hx⟩ := List.mem_flatMap.mp hx
  obtain ⟨pre, post, hsplit⟩ := List.append_of_mem hev
  obtain ⟨b, claim', a, rfl, hhappened, -, htake', -⟩ := claimed_before heach hsplit hx
  obtain rfl := took_same hkept hclaim (by simp [hsplit]) htake htake'
  obtain ⟨now, runner, limit, row, hop, hrunner, -⟩ := hhappened.takes htake
  obtain ⟨now', runner', limit', row', hop', hrunner', -⟩ := hhappened.takes htake'
  rw [hop] at hop'
  cases hop'
  exact (Option.some.inj hrunner).trans (Option.some.inj hrunner').symm

include hkept heach in
/-- What is handed out is a write when the call is one. -/
theorem handed_write {t : Nat} {now : Rat} {new : NewCall} (hq : Enqueues t now new tr)
    {x : RunnerIdentity × Claimed} (hx : x ∈ handedOut tr) (hid : x.2.id = new.id) :
    x.2.isWrite = new.isWrite := by
  obtain ⟨ev, hev, hx⟩ := List.mem_flatMap.mp hx
  obtain ⟨pre, post, hsplit⟩ := List.append_of_mem hev
  obtain ⟨b, claim, a, rfl, hhappened, -, -, ⟨row, hmem, hhanded, -⟩, -⟩ :=
    claimed_before heach hsplit hx
  have hcut : tr = b ++ claim :: (a ++ ev :: post) := by simp [hsplit]
  have hrow := hhappened.kept.keyed.row? hmem
  rw [show row.id = new.id from (congrArg Claimed.id hhanded).trans hid] at hrow
  rw [← hhanded]
  exact (hq.row hkept heach hcut hrow).2

include hkept heach in
/-- **The control plane refuses no write that it hands out**, before or after. -/
theorem not_refused {x : RunnerIdentity × Claimed} (hx : x ∈ handedOut tr)
    (hwrite : x.2.isWrite = true) {e : (plane site).Event} (he : e ∈ tr) (tenantId : String)
    (reply : Answer) : e.op ≠ .db (.recordResult tenantId x.2.id reply none) := by
  intro hop
  obtain ⟨ev, hev, hx⟩ := List.mem_flatMap.mp hx
  obtain ⟨pre, post, hsplit⟩ := List.append_of_mem hev
  obtain ⟨b, claim, a, rfl, hhappened, hthread, htake, -, hreleased⟩ :=
    claimed_before heach hsplit hx
  obtain ⟨hunrefused, -⟩ := hreleased hwrite
  obtain ⟨calls, hrespond, -⟩ := mem_handed hx
  have hcut : tr = b ++ claim :: (a ++ ev :: post) := by simp [hsplit]
  -- The request that refuses the call is the one that has claimed it, and has not answered yet.
  have hrefusal : ∀ {p q}, tr = p ++ e :: q →
      Unanswered (System.own e.thread p) ∧ claim ∈ p ∧ claim.thread = e.thread := by
    intro p q hsplit'
    have hallowed := (heach p e q hsplit').allowed
    rw [hop] at hallowed
    obtain ⟨-, hquiet, runner, c, ⟨now, limit, claimed, hheld, hc⟩, -, hid⟩ := hallowed
    obtain ⟨done, rest, hpast⟩ := List.append_of_mem hheld
    obtain ⟨p', claim', q', rfl, hthread', hdone, -, -⟩ := System.own_split hpast
    have hcut' : tr = p' ++ claim' :: (q' ++ e :: q) := by simp [hsplit']
    obtain ⟨htake', -⟩ := ((heach p' claim' _ hcut').claimed hdone).2 c hc
    rw [hid] at htake'
    obtain rfl := took_same hkept (by simp [hcut]) (by simp [hcut']) htake htake'
    exact ⟨hquiet, by simp, hthread'⟩
  have hsame : e.thread = ev.thread := by
    obtain ⟨p, q, hsplit'⟩ := List.append_of_mem he
    rw [← (hrefusal hsplit').2.2, hthread]
  rw [hcut, List.mem_append, List.mem_cons, List.mem_append, List.mem_cons] at he
  rcases he with he | rfl | he | rfl | he
  · -- No claim of the call comes before the one that has taken it.
    obtain ⟨p, q, rfl⟩ := List.append_of_mem he
    obtain ⟨-, hbefore, -⟩ := hrefusal (p := p) (q := q ++ claim :: (a ++ ev :: post))
      (by simp [hcut])
    have hone := taken_by_one hkept x.2.id
    rw [hcut] at hone
    exact (List.pairwise_append.mp hone).2.2 claim (List.mem_append_left _ hbefore) claim
      (List.mem_cons_self ..) _ _ htake htake
  · obtain ⟨now, runner, limit, row, hclaim, -⟩ := hhappened.takes htake
    rw [hop] at hclaim
    cases hclaim
  · have hown := System.own_mem he
    rw [hsame] at hown
    obtain ⟨u, o, ch, before, answer, after⟩ := e
    obtain rfl : o = .db (.recordResult tenantId x.2.id reply none) := hop
    exact hunrefused _ _ _ _ hown
  · rw [hop] at hrespond
    cases hrespond
  · obtain ⟨p, q, rfl⟩ := List.append_of_mem he
    obtain ⟨hquiet, -, -⟩ := hrefusal (p := b ++ claim :: (a ++ ev :: p)) (q := q) (by simp [hcut])
    have hown := System.own_mem (show ev ∈ b ++ claim :: (a ++ ev :: p) by simp)
    rw [← hsame] at hown
    obtain ⟨u, o, ch, before, answer, after⟩ := ev
    obtain rfl : o = .respond x.1 calls := hrespond
    exact hquiet _ _ hown

/-- The runner returns for the call what it makes of the result of its connector. -/
def Returns (w : Writer) (tr : List (plane site).Event) (runnerId : String) (id : Nat)
    (result : Runner.Result) : Prop :=
  ∀ e ∈ tr, ∀ tenantId reply, e.op = .db (.recordResult tenantId id reply (some runnerId)) →
    w.Posted result reply

include hkept heach in
/-- **The answer of a write that was handed out is what its runner returns.** -/
theorem posted_answer {t : Nat} {now : Rat} {new : NewCall} (hq : Enqueues t now new tr)
    (hwrite : new.isWrite = true) {x : RunnerIdentity × Claimed} (hx : x ∈ handedOut tr)
    (hid : x.2.id = new.id) (hreturns : Returns w tr x.1.id new.id result)
    {post : List (plane site).Event} (hsplit : tr = pre ++ ev :: post) {reply : Answer}
    (hanswers : .answer (some reply) ∈ did new.id ev) : w.Posted result reply := by
  have hev : ev ∈ tr := by simp [hsplit]
  obtain ⟨claim, hclaim, now', runner, limit, -, htake, hrecord | ⟨hrecord, -, -⟩⟩ :=
    answered_by_holder hkept heach hsplit hanswers
  · rw [← hid] at htake
    have hclaim : claim ∈ tr := by
      rw [hsplit]
      exact List.mem_append_left _ hclaim
    rw [holder_of_handed hkept heach hx hclaim htake] at hrecord
    exact hreturns ev hev _ reply hrecord
  · rw [← hid] at hrecord
    exact absurd hrecord (not_refused hkept heach hx
      ((handed_write hkept heach hq hx hid).trans hwrite) hev _ reply)

include heach in
/-- A thread whose operation was cancelled has an event that says so. -/
theorem Interrupted.event {t : Nat} (h : Interrupted (System.own t tr)) :
    ∃ e ∈ tr, e.thread = t ∧ e.choice.fault = some .cancelled := by
  rcases h with ⟨c, hc⟩ | ⟨seconds, hc⟩
  · obtain ⟨ch, before, after, he⟩ := System.mem_own hc
    obtain ⟨p, q, hsplit⟩ := List.append_of_mem he
    have hran : transact c ch before = (.error .cancelled, after) :=
      Option.some.inj (heach p _ q hsplit).ran
    refine ⟨_, he, rfl, ?_⟩
    show ch.fault = some .cancelled
    unfold transact at hran
    split at hran
    · cases hfault : ch.fault with
      | none =>
        rw [hfault] at hran
        cases congrArg Prod.fst hran
      | some e =>
        rw [hfault] at hran
        cases congrArg Prod.fst hran
        rfl
    · split at hran
      · cases congrArg Prod.fst hran
      · rename_i e hfault
        cases congrArg Prod.fst hran
        exact hfault
  · obtain ⟨ch, before, after, he⟩ := System.mem_own hc
    obtain ⟨p, q, hsplit⟩ := List.append_of_mem he
    have hran : ch.fault.elim (.ok ()) .error = (.error .cancelled : Except Fault Unit) :=
      congrArg Prod.fst (Option.some.inj (heach p _ q hsplit).ran)
    refine ⟨_, he, rfl, ?_⟩
    show ch.fault = some .cancelled
    cases hfault : ch.fault with
    | none =>
      rw [hfault] at hran
      cases hran
    | some e =>
      rw [hfault] at hran
      cases hran
      rfl

end Events

/-! ## Every run -/

/-- The caller is told that the write was made, or that its outcome is not known. -/
def Reports (res : Except Exn Runner.Result) : Prop :=
  (∃ told, res = .ok told ∧ told.success = true) ∨ ∃ message, res = .error (.outcomeUnknown message)

/-- **A write that was made is reported so exactly when its data comes through**, in the runs whose
failures do no harm, to a caller that is not cancelled and does not wait any more: the runner was
given the write, before or after, and returns a successful result.  When the data comes through the
caller is told of a success, or that the outcome is not known; otherwise it is told of a failure
whenever it is given a result. -/
theorem made_write_told (site : Site) (w : Writer) (s : State) (hs : s.queue.rows = [])
    (d : Config Calls Exn (State × List (plane site).Event))
    (hr : (plane site).recorded.Reaches (fun _ (o : Op) ch st => o.Spares ch st.1.queue)
      (Config.idle (s, [])) d)
    (pre post : List (plane site).Event) (ev : (plane site).Event)
    (hsplit : d.shared.2 = pre ++ ev :: post) (res : Except Exn Runner.Result)
    (hop : ev.op = .ended res)
    (hgoes : ∀ e ∈ d.shared.2, e.thread = ev.thread → e.choice.fault ≠ some .cancelled)
    (hwaited : res ≠ .error .unfinished)
    (now : Rat) (new : NewCall) (hq : Enqueues ev.thread now new pre) (hwrite : new.isWrite = true)
    (x : RunnerIdentity × Claimed) (hx : x ∈ handedOut d.shared.2) (hid : x.2.id = new.id)
    (result : Runner.Result) (hmade : result.success = true)
    (hreturns : Returns w d.shared.2 x.1.id new.id result) :
    (w.Fits result → Reports res) ∧
      (¬ w.Fits result → ∀ told, res = .ok told → told.success = false) := by
  obtain ⟨hkept, heach⟩ := kept_of_reaches hs hr
  have hspared : Spared d.shared.2 := fun pre ev post hsplit =>
    (System.recorded_each hr pre ev post hsplit).1
  have hends := (heach pre ev post hsplit).allowed
  rw [hop] at hends
  have hq' : Enqueues ev.thread now new d.shared.2 := by
    rw [hsplit]
    exact hq.append _
  -- The answer that the caller has read is its runner's.
  have hread : ∀ {now' new' reply}, asked (.enqueue now' new') (.ok ()) ∈ System.own ev.thread pre →
      asked (.answer new'.tenantId new'.id) (.ok (some reply)) ∈ System.own ev.thread pre →
      ∃ told, resultOf site reply = .ok told ∧ (told.success = true ↔ w.Fits result) := by
    intro now' new' reply hplaced hanswer
    have hqueued : Enqueues ev.thread now' new' d.shared.2 := by
      rw [hsplit]
      exact Enqueues.append ⟨_, hplaced⟩ _
    obtain rfl := hqueued.one heach hq'
    obtain ⟨before, e, after, rfl, hanswers⟩ := answer_recorded heach hsplit hanswer
    have hcut : d.shared.2 = before ++ e :: (after ++ ev :: post) := by simp [hsplit]
    exact (posted_answer hkept heach hq' hwrite hx hid hreturns hcut hanswers).told hmade
  cases res with
  | ok told =>
    obtain ⟨now', new', reply, hplaced, hanswer, hresult⟩ := hends.result told rfl
    obtain ⟨told', htold, hfits⟩ := hread hplaced hanswer
    rw [hresult] at htold
    cases htold
    refine ⟨fun h => .inl ⟨told, rfl, hfits.mpr h⟩, fun h told' heq => ?_⟩
    cases heq
    exact Bool.eq_false_iff.mpr fun hsuccess => h (hfits.mp hsuccess)
  | error e =>
    refine ⟨fun _ => ?_, by rintro - _ ⟨⟩⟩
    by_cases hcall : e.ofCall = true
    · -- The call of a write that was handed out does not fail.
      exact absurd hid (not_handed heach
        (not_taken_failed hkept heach hspared hsplit hop hcall hq' hwrite) x hx)
    · rcases hends.answer e rfl (Bool.eq_false_iff.mpr hcall) with hopen | hnone | hanswered
      · cases e with
        | outcomeUnknown message => exact .inr ⟨message, rfl⟩
        | unfinished => exact absurd rfl hwaited
        | cancelled =>
          have hbefore : System.Each Happened pre := fun p e q hcut =>
            heach p e (q ++ ev :: post) (by simp [hsplit, hcut])
          obtain ⟨e, he, hthread, hfault⟩ := Interrupted.event hbefore hopen
          exact absurd hfault (hgoes e (by simp [hsplit, he]) hthread)
        | _ => exact hopen.elim
      · obtain ⟨v, hv⟩ := hq
        exact absurd hv (hnone _ _ _)
      · obtain ⟨now', new', reply, hplaced, hanswer, hresult⟩ := hanswered
        obtain ⟨told, htold, -⟩ := hread hplaced hanswer
        rw [hresult] at htold
        cases htold

/-- The moves of the sample, in which the runner returns this answer. -/
def returnMoves (reply : Answer) (steps : List (Nat × Choice)) :
    List (plane sampleSite).recorded.Move :=
  .start sampleCaller :: .start (runnerClaim sampleSite sampleRunner 1 0 .null 5) ::
    .start ((runnerResult sampleRunner 0 reply.outcome reply.result).bind fun _ => .ret ()) ::
      steps.map fun x => .op x.1 x.2

theorem starts_returnMoves (reply : Answer) (steps : List (Nat × Choice)) :
    (plane sampleSite).recorded.Starts (returnMoves reply steps) :=
  .start (Serves.invoke _ _ _ _ _ _ _)
    (.start (Serves.claim _ _ _ _ _) (.start (Serves.result _ _ _ _) .each))

/-- The answer that an event records in the name of a runner. -/
def returnedIn (ev : (plane sampleSite).Event) : Option Answer :=
  match ev.op with
  | .db (.recordResult _ _ reply (some _)) => some reply
  | _ => none

/-- The run hands a write out, and ends with what its caller is told. -/
def tells (reply : Answer) (success : Bool) (tr : List (plane sampleSite).Event) : Bool :=
  (tr.all fun e => e.choice.fault.isNone && (returnedIn e).all (· = reply)) &&
    tr.getLast?.any fun ev => (succeeds ev).any (·.success = success) &&
      tr.dropLast.any fun e => e.thread == ev.thread && (queued e).any fun q =>
        q.2.isWrite && (handedOut tr).any fun x => x.2.id == q.2.id

/-- A run of the sample, with what the theorem asks for. -/
theorem returned_run {reply : Answer} {success : Bool}
    (h : ((plane sampleSite).recorded.playIf
      (fun _ (o : Op) (ch : Choice) st => decide (o.Spares ch st.1.queue))
      (Config.idle ({}, [])) (returnMoves reply answeredSteps)).map
        (fun d => tells reply success d.shared.2) = some true) :
    ∃ (d : Config Calls Exn (State × List (plane sampleSite).Event))
      (pre : List (plane sampleSite).Event) (ev : (plane sampleSite).Event) (told : Runner.Result)
      (now : Rat) (new : NewCall) (x : RunnerIdentity × Claimed),
      (plane sampleSite).recorded.Reaches (fun _ (o : Op) ch st => o.Spares ch st.1.queue)
        (Config.idle ({}, [])) d ∧ d.shared.2 = pre ++ ev :: [] ∧ ev.op = .ended (.ok told) ∧
      told.success = success ∧
      (∀ e ∈ d.shared.2, e.thread = ev.thread → e.choice.fault ≠ some .cancelled) ∧
      Enqueues ev.thread now new pre ∧ new.isWrite = true ∧ x ∈ handedOut d.shared.2 ∧
      x.2.id = new.id ∧ ∀ e ∈ d.shared.2, ∀ tenantId id reply' runnerId,
        e.op = .db (.recordResult tenantId id reply' (some runnerId)) → reply' = reply := by
  obtain ⟨d, hd, htells⟩ := Option.map_eq_some_iff.mp h
  have hr := System.playIf_reaches _
    (fun _ (o : Op) (ch : Choice) st hok => of_decide_eq_true hok) (starts_returnMoves _ _) hd
  simp only [tells, Bool.and_eq_true, List.all_eq_true, List.any_eq_true, Option.any_eq_true,
    Option.all_eq_true, beq_iff_eq, decide_eq_true_eq, Option.isNone_iff_eq_none] at htells
  obtain ⟨hall, ev, hlast, ⟨told, htold, hsuccess⟩, e, he, hthread, ⟨now, new⟩, hqueued, hwrite, x,
    hx, hid⟩ := htells
  have hop : ev.op = .ended (.ok told) := by
    unfold succeeds at htold
    split at htold
    · rename_i hop
      cases htold
      exact hop
    · cases htold
  refine ⟨d, d.shared.2.dropLast, ev, told, now, new, x, hr,
    (List.dropLast_append_getLast? ev hlast).symm, hop, hsuccess, ?_, ?_, hwrite, hx, hid, ?_⟩
  · intro e he _ hfault
    rw [(hall e he).1] at hfault
    cases hfault
  · obtain ⟨t, o, ch, before, v, after⟩ := e
    obtain rfl : t = ev.thread := hthread
    unfold queued at hqueued
    split at hqueued
    · rename_i hop
      obtain rfl : o = _ := hop
      cases hqueued
      exact ⟨v, System.own_mem he⟩
    · cases hqueued
  · intro e he tenantId id reply' runnerId hrecord
    refine (hall e he).2 reply' ?_
    unfold returnedIn
    rw [hrecord]

/-- A runner without the limits of nesting. -/
def sampleWriter : Writer where
  canonical v := .ok (Runner.canonical Json.integers v)
  loads text := (Json.loads Json.integers text).elim
    (.error (.valueError "Expecting value: line 1 column 1 (char 0)")) .ok

theorem sampleWriter_loads : sampleWriter.loads (Runner.canonical Json.integers (.obj [])) =
    .ok (.obj []) := by
  have hread : Json.loads Json.integers (Runner.canonical Json.integers (.obj [])) =
      some (.obj []) := by decide +kernel
  exact congrArg (fun read : Option Json => read.elim
    (.error (.valueError "Expecting value: line 1 column 1 (char 0)")) Except.ok) hread

/-- What the runner returns for a small result. -/
def smallReply : Answer := ⟨"ok", wireOf (Runner.screenResult "READY") (.obj [])⟩

theorem returned_small : sampleWriter.returned (Runner.screenResult "READY") = smallReply :=
  Writer.returned_ok rfl (by decide +kernel) sampleWriter_loads

theorem made_write_told_sample : ∃ (d : Config Calls Exn (State × List (plane sampleSite).Event))
    (res : Except Exn Runner.Result), (∃ ev ∈ d.shared.2, ev.op = .ended res) ∧
    sampleWriter.Fits (Runner.screenResult "READY") ∧
    (sampleWriter.Fits (Runner.screenResult "READY") → Reports res) ∧
      (¬ sampleWriter.Fits (Runner.screenResult "READY") →
        ∀ told, res = .ok told → told.success = false) := by
  have hplay : ((plane sampleSite).recorded.playIf
      (fun _ (o : Op) (ch : Choice) st => decide (o.Spares ch st.1.queue))
      (Config.idle ({}, [])) (returnMoves smallReply answeredSteps)).map
        (fun d => tells smallReply true d.shared.2) = some true := by
    -- The hand-over reads an envelope, which is quicker by its bytes.
    unfold returnMoves
    delta runnerClaim offer offer._f handOut handOutEach handOutEach._f handOutOne handOver
    rw [Json.loads_eq_loadsAscii]
    decide +kernel
  obtain ⟨d, pre, ev, told, now, new, x, hr, hsplit, hop, -, hgoes, hq, hwrite, hx, hid, hreply⟩ :=
    returned_run hplay
  have hreturns : Returns sampleWriter d.shared.2 x.1.id new.id (Runner.screenResult "READY") := by
    intro e he tenantId reply hrecord
    obtain rfl := hreply e he _ _ _ _ hrecord
    rw [← returned_small]
    exact ⟨rfl, fun _ => rfl⟩
  exact ⟨d, .ok told, ⟨ev, by simp [hsplit], hop⟩,
    ⟨_, _, rfl, by decide +kernel, sampleWriter_loads⟩,
    made_write_told sampleSite sampleWriter {} rfl d hr pre [] ev hsplit (.ok told) hop hgoes
      (by simp) now new hq hwrite x hx hid (Runner.screenResult "READY") rfl hreturns⟩

/-- A result whose data is a text of this length. -/
def logResult (n : Nat) : Runner.Result where
  success := true
  data := .obj [("log", .str (String.ofList (List.replicate n 'a')))]

theorem logResult_length (n : Nat) :
    (Runner.canonical Json.integers (dataOf (logResult n))).toList.length = n + 10 := by
  have hletter : (Json.escapeChar true 'a').length = 1 := by decide
  have htext : Runner.escaped (String.ofList (List.replicate n 'a')) = n := by
    rw [Runner.escaped_replicate, hletter, Nat.mul_one]
  have hkey : Runner.escaped "log" = 3 := by decide +kernel
  have hdata : dataOf (logResult n) =
      .obj [("log", .str (String.ofList (List.replicate n 'a')))] := rfl
  have hcolon : ":".toList.length = 1 := by decide +kernel
  unfold Runner.canonical Json.dumps
  rw [String.toList_ofList, if_pos rfl, hdata]
  simp only [Json.canonical, Json.canonicalFields, Json.insertField.eq_1, Json.render.eq_6,
    Json.render.eq_8, Json.renderFields, Json.renderMoreFields, List.length_cons, List.length_nil,
    List.length_append, Runner.length_renderString, htext, hkey, hcolon]
  omega

/-- What the runner returns for a large result. -/
def largeReply : Answer := ⟨"error", .obj [("error", .str "the result is too large to return")]⟩

theorem returned_large
    (h : maxData < (Runner.canonical Json.integers (dataOf result)).toList.length) :
    sampleWriter.returned result = largeReply := by
  have hwire : sampleWriter.resultToWire result =
      .error (.valueError "the result is too large to return") := if_pos h
  unfold Writer.returned
  rw [hwire]
  rfl

/-- **A write that was made is reported as failed when its result is too large.** -/
theorem large_result_fails : ¬ ∀ (site : Site) (w : Writer) (s : State), s.queue.rows = [] →
    ∀ d : Config Calls Exn (State × List (plane site).Event),
    (plane site).recorded.Reaches (fun _ (o : Op) ch st => o.Spares ch st.1.queue)
      (Config.idle (s, [])) d →
    ∀ (pre post : List (plane site).Event) (ev : (plane site).Event),
    d.shared.2 = pre ++ ev :: post → ∀ res, ev.op = .ended res →
    (∀ e ∈ d.shared.2, e.thread = ev.thread → e.choice.fault ≠ some .cancelled) →
    res ≠ .error .unfinished → ∀ now new, Enqueues ev.thread now new pre → new.isWrite = true →
    ∀ x ∈ handedOut d.shared.2, x.2.id = new.id → ∀ result : Runner.Result, result.success = true →
    Returns w d.shared.2 x.1.id new.id result → Reports res := by
  intro hall
  have hplay : ((plane sampleSite).recorded.playIf
      (fun _ (o : Op) (ch : Choice) st => decide (o.Spares ch st.1.queue))
      (Config.idle ({}, [])) (returnMoves largeReply answeredSteps)).map
        (fun d => tells largeReply false d.shared.2) = some true := by
    -- The hand-over reads an envelope, which is quicker by its bytes.
    unfold returnMoves
    delta runnerClaim offer offer._f handOut handOutEach handOutEach._f handOutOne handOver
    rw [Json.loads_eq_loadsAscii]
    decide +kernel
  obtain ⟨d, pre, ev, told, now, new, x, hr, hsplit, hop, hfailed, hgoes, hq, hwrite, hx, hid,
    hreply⟩ := returned_run hplay
  have hlarge : maxData <
      (Runner.canonical Json.integers (dataOf (logResult maxData))).toList.length := by
    rw [logResult_length]
    omega
  have hreturns : Returns sampleWriter d.shared.2 x.1.id new.id (logResult maxData) := by
    intro e he tenantId reply hrecord
    obtain rfl := hreply e he _ _ _ _ hrecord
    rw [← returned_large hlarge]
    exact ⟨rfl, fun _ => rfl⟩
  have hreports := hall sampleSite sampleWriter {} rfl d hr pre [] ev hsplit (.ok told) hop hgoes
    (by simp) now new hq hwrite x hx hid (logResult maxData) rfl hreturns
  rcases hreports with ⟨told', ⟨⟩, hsuccess⟩ | ⟨message, ⟨⟩⟩
  rw [hfailed] at hsuccess
  cases hsuccess

end Dispatch
end L1Agent
