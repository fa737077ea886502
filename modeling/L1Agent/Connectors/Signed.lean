import L1Agent.Library.Decoded
import L1Agent.Library.Joined
import L1Agent.Actions.TrueStatus

/-! # What a grant's signature covers (`connectors/sdk/grant.py`, `actions/grants.py`)

A grant is signed as one text, its fields with a bar between them, and the check of a grant is the
check of that text.  Of the fields only the id of the step is written by the author of an SOP; the
others are ids that the program makes, names of the registry and hexadecimal digits.

Two grants with one text are one grant when no field of the one that was minted holds a bar
(`Grant.ext_of_body`).  `grants_sound` says that this decides it: over every run of one process, what
is accepted was minted for exactly that call, and once, just when no id of a step holds a bar.
`grant_resplit` is an SOP with one that does, which the validator accepts.

The signature scheme is taken as it is assumed to be: it accepts a text that was signed, and no
other (`Unforged`).  The floats are those of the language, as far as their printed form goes
(`Floats`).
-/
namespace L1Agent
open Decoded
namespace Signed

def bar : CodePoint := CodePoint.ofChar '|'

/-- The floats, which are printed without a bar and can be read again. -/
structure Floats where
  F : Type
  /-- `repr` -/
  repr : F → Text
  /-- `float`, of a text. -/
  parse : Text → Option F
  /-- The clock, and the time a grant is good for. -/
  later : F → F
  /-- `clock() >= expires_at` -/
  reached : F → F → Bool
  parse_repr : ∀ x, parse (repr x) = some x
  encodes_repr : ∀ x, Encodes (repr x)
  bar_repr : ∀ x, bar ∉ repr x
  lasts : ∃ now, reached now (later now) = false

/-- `Grant` -/
structure Grant (fl : Floats) where
  decisionId : Text
  tenantId : Text
  runId : Text
  stepId : Text
  capabilityId : Text
  callDigest : Text
  expiresAt : fl.F
  nonce : Text
  signature : Text

/-- What `mint` is called with. -/
structure Named where
  decisionId : Text
  tenantId : Text
  runId : Text
  stepId : Text
  capabilityId : Text
  callDigest : Text

/-- The call that a grant is presented for. -/
structure Call where
  tenantId : Text
  runId : Text
  stepId : Text
  capabilityId : Text
  digest : Text

/-- The signature scheme, with its signatures in hexadecimal digits. -/
structure Scheme where
  sign : Text → Text
  /-- `bytes.fromhex`, and the check of the signature of a text. -/
  verify : Text → Text → Bool

/-- `GRANT_DOMAIN` -/
def grantDomain : Text := text "l1-grant-v1"

/-- What is joined in `grant_body`. -/
def Grant.fields {fl : Floats} (g : Grant fl) : List Text :=
  [grantDomain, g.decisionId, g.tenantId, g.runId, g.stepId, g.capabilityId, g.callDigest,
    fl.repr g.expiresAt, g.nonce]

/-- `grant_body`, before it is encoded. -/
def grantBody {fl : Floats} (g : Grant fl) : Text := [bar].intercalate g.fields

section
variable (fl : Floats) (scheme : Scheme)

/-- `GrantAuthority.mint`, at this reading of the clock and with this nonce. -/
def mint (now : fl.F) (nonce : Text) (n : Named) : Except Raised (Grant fl) :=
  if n.decisionId = [] then .error valueError
  else
    let unsigned : Grant fl :=
      { decisionId := n.decisionId, tenantId := n.tenantId, runId := n.runId, stepId := n.stepId,
        capabilityId := n.capabilityId, callDigest := n.callDigest, expiresAt := fl.later now,
        nonce, signature := [] }
    if Encodes (grantBody unsigned) then
      .ok { unsigned with signature := scheme.sign (grantBody unsigned) }
    else .error unicodeEncodeError

/-- `GrantCheck.redeem`: why the grant is not accepted for this call, or `none`. -/
def refusal (redeemed : List Text) (now : fl.F) (grant : Option (Grant fl)) (call : Call) :
    Option String :=
  match grant with
  | none => some "That is not a grant"
  | some g =>
    if ¬ (Encodes (grantBody g) ∧ scheme.verify g.signature (grantBody g) = true) then
      some "The grant was not issued by the policy engine"
    else if fl.reached now g.expiresAt then some "The grant has expired"
    else if g.tenantId ≠ call.tenantId ∨ g.runId ≠ call.runId ∨ g.stepId ≠ call.stepId ∨
        g.capabilityId ≠ call.capabilityId then
      some "The grant is for a different step"
    else if g.callDigest ≠ call.digest then some "The grant is for different parameters"
    else if g.nonce ∈ redeemed then some "The grant has already been used"
    else none

/-! ## One process -/

/-- A process mints grants, or is presented with one. -/
inductive Act where
  | mint (now : fl.F) (nonce : Text) (n : Named)
  | redeem (now : fl.F) (grant : Option (Grant fl)) (call : Call)

structure State where
  /-- The grants that have been minted. -/
  minted : List (Grant fl) := []
  /-- `_redeemed` -/
  redeemed : List Text := []

variable {fl}

/-- The grant that an act presents, and the call, when it is accepted. -/
def State.accepted (s : State fl) : Act fl → Option (Grant fl × Call)
  | .mint .. => none
  | .redeem now grant call =>
    if refusal fl scheme s.redeemed now grant call = none then grant.map fun g => (g, call)
    else none

def State.next (s : State fl) (a : Act fl) : State fl :=
  match a with
  | .mint now nonce n => match mint fl scheme now nonce n with
    | .ok g => { s with minted := s.minted ++ [g] }
    | .error _ => s
  | .redeem .. => match s.accepted scheme a with
    | some (g, _) => { s with redeemed := g.nonce :: s.redeemed }
    | none => s

/-- What a process has after these acts. -/
def after (acts : List (Act fl)) : State fl := acts.foldl (State.next scheme) {}

/-- **A signature is good for the text that was signed**, and for no other. -/
def Unforged (acts : List (Act fl)) : Prop :=
  ∀ pre now g call post, acts = pre ++ .redeem now (some g) call :: post →
    scheme.verify g.signature (grantBody g) = true →
    ∃ m ∈ (after scheme pre).minted, grantBody m = grantBody g

/-- What grants promise: an accepted one was minted for exactly this call, with its expiry and its
nonce, and a signed text is accepted once. -/
structure Sound (acts : List (Act fl)) : Prop where
  minted : ∀ pre a post g call, acts = pre ++ a :: post →
    (after scheme pre).accepted scheme a = some (g, call) →
    ∃ now decisionId, .mint now g.nonce ⟨decisionId, call.tenantId, call.runId, call.stepId,
      call.capabilityId, call.digest⟩ ∈ pre ∧ fl.later now = g.expiresAt
  once : ∀ m ∈ (after scheme acts).minted, ∀ pre a mid a' post p p',
    acts = pre ++ a :: (mid ++ a' :: post) → (after scheme pre).accepted scheme a = some p →
    (after scheme (pre ++ a :: mid)).accepted scheme a' = some p' →
    ¬ (grantBody p.1 = grantBody m ∧ grantBody p'.1 = grantBody m)

end

/-- The fields that the program makes itself, which hold no bar. -/
structure Named.Plain (n : Named) : Prop where
  decisionId : bar ∉ n.decisionId
  tenantId : bar ∉ n.tenantId
  runId : bar ∉ n.runId
  capabilityId : bar ∉ n.capabilityId
  callDigest : bar ∉ n.callDigest

/-- An SOP that the validator accepts. -/
abbrev AcceptedSop (cat : Catalog) := { sop : SOP // validateSop cat sop = [] }

/-- The grants are minted for steps of these SOPs. -/
def ForSteps {cat : Catalog} {fl : Floats} (sops : Set (AcceptedSop cat)) (acts : List (Act fl)) :
    Prop :=
  ∀ now nonce n, .mint now nonce n ∈ acts → bar ∉ nonce ∧ n.Plain ∧
    ∃ sop ∈ sops, ∃ step ∈ sop.1.steps, n.stepId = text step.stepId

/-! ## Fields that are told apart -/

variable {fl : Floats} {scheme : Scheme} {s : State fl} {g m : Grant fl}

/-- **A grant is known by its text**, when the other one's fields hold no bar. -/
theorem Grant.ext_of_body (hm : ∀ t ∈ m.fields, bar ∉ t) (h : grantBody g = grantBody m) :
    g.tenantId = m.tenantId ∧ g.runId = m.runId ∧ g.stepId = m.stepId ∧
      g.capabilityId = m.capabilityId ∧ g.callDigest = m.callDigest ∧ g.expiresAt = m.expiresAt ∧
      g.nonce = m.nonce := by
  have hfields : g.fields = m.fields := Joined.intercalate_inj rfl hm h
  unfold Grant.fields at hfields
  simp only [List.cons.injEq, true_and, and_true] at hfields
  obtain ⟨-, htenant, hrun, hstep, hcapability, hdigest, hrepr, hnonce⟩ := hfields
  have hexpires : some g.expiresAt = some m.expiresAt := by
    rw [← fl.parse_repr, hrepr, fl.parse_repr]
  exact ⟨htenant, hrun, hstep, hcapability, hdigest, Option.some.inj hexpires, hnonce⟩

theorem mint_ok {now : fl.F} {nonce : Text} {n : Named} (h : mint fl scheme now nonce n = .ok m) :
    m = { decisionId := n.decisionId, tenantId := n.tenantId, runId := n.runId, stepId := n.stepId,
          capabilityId := n.capabilityId, callDigest := n.callDigest, expiresAt := fl.later now,
          nonce, signature := m.signature } := by
  unfold mint at h
  split at h
  · cases h
  · dsimp only at h
    split at h
    · cases h
      rfl
    · cases h

/-- What is accepted. -/
theorem refusal_none {redeemed : List Text} {now : fl.F} {call : Call}
    (h : refusal fl scheme redeemed now (some g) call = none) :
    scheme.verify g.signature (grantBody g) = true ∧ g.tenantId = call.tenantId ∧
      g.runId = call.runId ∧ g.stepId = call.stepId ∧ g.capabilityId = call.capabilityId ∧
      g.callDigest = call.digest ∧ g.nonce ∉ redeemed := by
  unfold refusal at h
  dsimp only at h
  split at h
  · cases h
  rename_i hsigned
  split at h
  · cases h
  split at h
  · cases h
  rename_i hcall
  split at h
  · cases h
  rename_i hdigest
  split at h
  · cases h
  rename_i hnonce
  simp only [not_or, not_not] at hsigned hcall hdigest
  exact ⟨hsigned.2, hcall.1, hcall.2.1, hcall.2.2.1, hcall.2.2.2, hdigest, hnonce⟩

theorem State.accepted_some {a : Act fl} {call : Call}
    (h : s.accepted scheme a = some (g, call)) :
    ∃ now, a = .redeem now (some g) call ∧ refusal fl scheme s.redeemed now (some g) call = none := by
  cases a with
  | mint now nonce n => cases h
  | redeem now grant call' =>
    unfold accepted at h
    dsimp only at h
    split at h
    · rename_i hnone
      obtain ⟨g', rfl, heq⟩ := Option.map_eq_some_iff.mp h
      cases heq
      exact ⟨now, rfl, hnone⟩
    · cases h

/-! ## Runs of a process -/

theorem after_concat (acts : List (Act fl)) (a : Act fl) :
    after scheme (acts ++ [a]) = (after scheme acts).next scheme a := by
  unfold after
  rw [List.foldl_append]
  rfl

/-- What has been minted, `mint` was called for. -/
theorem mem_minted {acts : List (Act fl)} (h : m ∈ (after scheme acts).minted) :
    ∃ now nonce n, .mint now nonce n ∈ acts ∧ mint fl scheme now nonce n = .ok m := by
  induction acts using List.reverseRec with
  | nil => exact absurd h List.not_mem_nil
  | append_singleton acts a ih =>
    have hbefore : m ∈ (after scheme acts).minted →
        ∃ now nonce n, .mint now nonce n ∈ acts ++ [a] ∧ mint fl scheme now nonce n = .ok m := by
      intro hm
      obtain ⟨now, nonce, n, hmem, hmint⟩ := ih hm
      exact ⟨now, nonce, n, List.mem_append_left _ hmem, hmint⟩
    rw [after_concat] at h
    cases a with
    | mint now nonce n =>
      unfold State.next at h
      dsimp only at h
      split at h
      · rename_i g hmint
        rcases List.mem_append.mp h with h | h
        · exact hbefore h
        · cases List.mem_singleton.mp h
          exact ⟨now, nonce, n, by simp, hmint⟩
      · exact hbefore h
    | redeem now grant call =>
      unfold State.next at h
      dsimp only at h
      split at h
      · exact hbefore h
      · exact hbefore h

/-- A nonce that has been used stays used. -/
theorem redeemed_append {nonce : Text} {pre : List (Act fl)} (post : List (Act fl))
    (h : nonce ∈ (after scheme pre).redeemed) : nonce ∈ (after scheme (pre ++ post)).redeemed := by
  induction post using List.reverseRec with
  | nil => simpa using h
  | append_singleton post a ih =>
    rw [← List.append_assoc, after_concat]
    cases a with
    | mint now nonce' n =>
      unfold State.next
      dsimp only
      split
      · exact ih
      · exact ih
    | redeem now grant call =>
      unfold State.next
      dsimp only
      split
      · exact List.mem_cons_of_mem _ ih
      · exact ih

theorem redeemed_accepted {pre : List (Act fl)} {a : Act fl} {call : Call}
    (h : (after scheme pre).accepted scheme a = some (g, call)) :
    g.nonce ∈ (after scheme (pre ++ [a])).redeemed := by
  obtain ⟨now, rfl, -⟩ := State.accepted_some h
  rw [after_concat]
  unfold State.next
  dsimp only
  rw [h]
  exact List.mem_cons_self

/-- **Without bars, grants are sound.** -/
theorem sound_of_plain {acts : List (Act fl)} (hunforged : Unforged scheme acts)
    (hplain : ∀ now nonce n, .mint now nonce n ∈ acts → bar ∉ nonce ∧ n.Plain ∧ bar ∉ n.stepId) :
    Sound scheme acts := by
  have hfields : ∀ pre post, acts = pre ++ post → ∀ m ∈ (after scheme pre).minted,
      ∀ t ∈ m.fields, bar ∉ t := by
    rintro pre post rfl m hm t ht
    obtain ⟨now, nonce, n, hmem, hmint⟩ := mem_minted hm
    obtain ⟨hnonce, hn, hstep⟩ := hplain now nonce n (List.mem_append_left _ hmem)
    have hdomain : bar ∉ grantDomain := by decide
    rw [mint_ok hmint] at ht
    simp only [Grant.fields, List.mem_cons, List.not_mem_nil, or_false] at ht
    rcases ht with rfl | rfl | rfl | rfl | rfl | rfl | rfl | rfl | rfl
    · exact hdomain
    · exact hn.decisionId
    · exact hn.tenantId
    · exact hn.runId
    · exact hstep
    · exact hn.capabilityId
    · exact hn.callDigest
    · exact fl.bar_repr _
    · exact hnonce
  refine ⟨fun pre a post g call hsplit haccepted => ?_,
    fun m hm pre a mid a' post p p' hsplit haccepted haccepted' hbodies => ?_⟩
  · obtain ⟨now, rfl, hnone⟩ := State.accepted_some haccepted
    obtain ⟨hsigned, htenant, hrun, hstep, hcapability, hdigest, -⟩ := refusal_none hnone
    obtain ⟨m, hm, hbody⟩ := hunforged pre now g call post hsplit hsigned
    obtain ⟨heTenant, heRun, heStep, heCapability, heDigest, heExpires, heNonce⟩ :=
      Grant.ext_of_body (hfields pre _ hsplit m hm) hbody.symm
    obtain ⟨now', nonce, n, hmem, hmint⟩ := mem_minted hm
    have hmade := mint_ok hmint
    refine ⟨now', n.decisionId, ?_, ?_⟩
    · have hn : n = ⟨n.decisionId, call.tenantId, call.runId, call.stepId, call.capabilityId,
          call.digest⟩ := by
        rw [← htenant, ← hrun, ← hstep, ← hcapability, ← hdigest, heTenant, heRun, heStep,
          heCapability, heDigest, hmade]
      have hnonce : nonce = g.nonce := by rw [heNonce, hmade]
      rw [← hn, ← hnonce]
      exact hmem
    · rw [heExpires, hmade]
  · obtain ⟨g, call⟩ := p
    obtain ⟨g', call'⟩ := p'
    have hplainM := hfields acts [] (List.append_nil _).symm m hm
    have hnonce := (Grant.ext_of_body hplainM hbodies.1).2.2.2.2.2.2
    have hnonce' := (Grant.ext_of_body hplainM hbodies.2).2.2.2.2.2.2
    obtain ⟨now, rfl, hnone⟩ := State.accepted_some haccepted'
    have hfresh := (refusal_none hnone).2.2.2.2.2.2
    refine hfresh ?_
    have hused := redeemed_append mid (redeemed_accepted haccepted)
    rw [List.append_assoc, List.singleton_append] at hused
    rw [hnonce', ← hnonce]
    exact hused

/-! ## A grant that is split differently -/

theorem mem_intercalate {c : CodePoint} {parts : List Text} (h : c ∈ [bar].intercalate parts) :
    c = bar ∨ ∃ t ∈ parts, c ∈ t := by
  induction parts with
  | nil => exact absurd h List.not_mem_nil
  | cons t rest ih =>
    cases rest with
    | nil =>
      rw [List.intercalate_singleton] at h
      exact .inr ⟨t, List.mem_cons_self, h⟩
    | cons t' rest =>
      rw [List.intercalate_cons_cons, List.mem_append, List.mem_append] at h
      rcases h with (h | h) | h
      · exact .inr ⟨t, List.mem_cons_self, h⟩
      · exact .inl (List.mem_singleton.mp h)
      · exact (ih h).imp_right fun ⟨t', ht', hc⟩ => ⟨t', List.mem_cons_of_mem _ ht', hc⟩

theorem encodes_body (h : ∀ t ∈ g.fields, Encodes t) : Encodes (grantBody g) := by
  intro c hc
  rcases mem_intercalate hc with rfl | ⟨t, ht, hc⟩
  · rfl
  · exact h t ht c hc

/-- A scheme whose signature of a text is the text. -/
def textScheme : Scheme where
  sign t := t
  verify signature t := decide (signature = t)

/-- What a grant for this step is minted with. -/
def namedFor (stepId : Text) : Named where
  decisionId := text "decision"
  tenantId := text "tenant"
  runId := text "run"
  stepId
  capabilityId := text "JOB_RESTART"
  callDigest := text "digest"

theorem plain_namedFor (stepId : Text) : (namedFor stepId).Plain where
  decisionId := show bar ∉ text "decision" by decide
  tenantId := show bar ∉ text "tenant" by decide
  runId := show bar ∉ text "run" by decide
  capabilityId := show bar ∉ text "JOB_RESTART" by decide
  callDigest := show bar ∉ text "digest" by decide

/-- The grant that is minted. -/
def mintedFor (now : fl.F) (stepId : Text) : Grant fl :=
  { decisionId := text "decision", tenantId := text "tenant", runId := text "run", stepId
    capabilityId := text "JOB_RESTART", callDigest := text "digest", expiresAt := fl.later now
    nonce := text "nonce", signature := [] }

/-- The same text, with the first bar of the step's id between two fields. -/
def resplit (now : fl.F) (first rest : Text) : Grant fl :=
  { decisionId := text "decision" ++ bar :: text "tenant", tenantId := text "run", runId := first
    stepId := rest, capabilityId := text "JOB_RESTART", callDigest := text "digest"
    expiresAt := fl.later now, nonce := text "nonce"
    signature := grantBody (mintedFor now (first ++ bar :: rest)) }

theorem body_resplit (now : fl.F) (first rest : Text) :
    grantBody (resplit now first rest) = grantBody (mintedFor now (first ++ bar :: rest)) := by
  simp [grantBody, Grant.fields, resplit, mintedFor, List.intercalate_cons_cons]

/-- The grant with its signature. -/
def signedFor (now : fl.F) (stepId : Text) : Grant fl :=
  { mintedFor now stepId with signature := grantBody (mintedFor now stepId) }

theorem encodes_mintedFor (now : fl.F) {stepId : Text} (h : Encodes stepId) :
    Encodes (grantBody (mintedFor now stepId)) := by
  refine encodes_body fun t ht => ?_
  simp only [Grant.fields, mintedFor, List.mem_cons, List.not_mem_nil, or_false] at ht
  rcases ht with rfl | rfl | rfl | rfl | rfl | rfl | rfl | rfl | rfl
  · exact encodes_ofChars _
  · exact encodes_ofChars _
  · exact encodes_ofChars _
  · exact encodes_ofChars _
  · exact h
  · exact encodes_ofChars _
  · exact encodes_ofChars _
  · exact fl.encodes_repr _
  · exact encodes_ofChars _

theorem mint_namedFor (now : fl.F) {stepId : Text} (h : Encodes stepId) :
    mint fl textScheme now (text "nonce") (namedFor stepId) = .ok (signedFor now stepId) := by
  have hdecision : (namedFor stepId).decisionId ≠ [] := by
    show text "decision" ≠ []
    decide
  unfold mint
  rw [if_neg hdecision]
  exact if_pos (encodes_mintedFor now h)

/-- The call that the grant is presented for. -/
def callFor (first rest : Text) : Call where
  tenantId := text "run"
  runId := first
  stepId := rest
  capabilityId := text "JOB_RESTART"
  digest := text "digest"

/-- A grant is minted, and presented with its fields split differently. -/
def resplitActs (now : fl.F) (first rest : Text) : List (Act fl) :=
  [.mint now (text "nonce") (namedFor (first ++ bar :: rest)),
    .redeem now (some (resplit now first rest)) (callFor first rest)]

theorem after_mint (now : fl.F) {stepId : Text} (h : Encodes stepId) :
    after textScheme [.mint now (text "nonce") (namedFor stepId)] =
      { minted := [signedFor now stepId] } := by
  unfold after
  rw [List.foldl_cons, List.foldl_nil]
  unfold State.next
  dsimp only
  rw [mint_namedFor now h]
  rfl

/-- The grant is accepted for the other call. -/
theorem resplit_accepted {now : fl.F} (hnow : fl.reached now (fl.later now) = false)
    {first rest : Text} (h : Encodes (first ++ bar :: rest)) :
    refusal fl textScheme [] now (some (resplit now first rest)) (callFor first rest) = none := by
  have hencodes : Encodes (grantBody (resplit now first rest)) := by
    rw [body_resplit]
    exact encodes_mintedFor now h
  have hsigned : textScheme.verify (resplit now first rest).signature
      (grantBody (resplit now first rest)) = true :=
    decide_eq_true (body_resplit now first rest).symm
  have hexpiry : (resplit now first rest).expiresAt = fl.later now := rfl
  unfold refusal
  dsimp only
  rw [if_neg (not_not.mpr ⟨hencodes, hsigned⟩), hexpiry, hnow]
  simp [resplit, callFor]

/-- **A bar in the id of a step splits a grant.** -/
theorem resplit_unsound {now : fl.F} (hnow : fl.reached now (fl.later now) = false)
    {first rest : Text} (h : Encodes (first ++ bar :: rest)) :
    Unforged textScheme (resplitActs now first rest) ∧
      ¬ Sound textScheme (resplitActs now first rest) := by
  have hafter := after_mint now h
  refine ⟨fun pre now' g call post hsplit hsigned => ?_, fun hsound => ?_⟩
  · unfold resplitActs at hsplit
    cases pre with
    | nil => cases hsplit
    | cons a pre =>
      cases pre with
      | nil =>
        cases hsplit
        rw [hafter]
        exact ⟨_, List.mem_singleton_self _, (body_resplit now first rest).symm⟩
      | cons a' pre =>
        have hlength := congrArg List.length hsplit
        simp at hlength
  · have haccepted : (after textScheme
        [.mint now (text "nonce") (namedFor (first ++ bar :: rest))]).accepted textScheme
          (.redeem now (some (resplit now first rest)) (callFor first rest)) =
        some (resplit now first rest, callFor first rest) := by
      rw [hafter]
      unfold State.accepted
      dsimp only
      rw [if_pos (resplit_accepted hnow h)]
      rfl
    obtain ⟨now', decisionId, hmem, -⟩ := hsound.minted _ _ [] _ _ rfl haccepted
    rw [List.mem_singleton] at hmem
    have htenant : (text "run" : Text) = text "tenant" := by
      injection hmem with _ _ hnamed
      exact congrArg Named.tenantId hnamed
    revert htenant
    decide

theorem bar_mem_text {t : String} : bar ∈ text t ↔ '|' ∈ t.toList := by
  unfold text ofChars
  rw [List.mem_map]
  constructor
  · rintro ⟨c, hc, heq⟩
    have hval : (CodePoint.ofChar c).val = bar.val := congrArg Fin.val heq
    have hsame : c = '|' := Char.ext (UInt32.toNat_inj.mp hval)
    exact hsame ▸ hc
  · intro h
    exact ⟨'|', h, rfl⟩

/-- **Grants are sound exactly when no id of a step holds a bar**: for every run of a process that
mints grants for steps of these SOPs, and is presented with any. -/
theorem grants_sound (fl : Floats) (cat : Catalog) (sops : Set (AcceptedSop cat)) :
    (∀ scheme (acts : List (Act fl)), ForSteps sops acts → Unforged scheme acts →
      Sound scheme acts) ↔ ∀ sop ∈ sops, ∀ step ∈ sop.1.steps, '|' ∉ step.stepId.toList := by
  constructor
  · intro hall sop hsop step hstep hbar
    obtain ⟨first, rest, hid⟩ := List.append_of_mem (bar_mem_text.mpr hbar)
    obtain ⟨now, hnow⟩ := fl.lasts
    have hencodes : Encodes (first ++ bar :: rest) := by
      rw [← hid]
      exact encodes_ofChars _
    obtain ⟨hunforged, hunsound⟩ := resplit_unsound hnow hencodes
    refine hunsound (hall textScheme _ ?_ hunforged)
    intro now' nonce n hmem
    obtain ⟨rfl, rfl, rfl⟩ : now' = now ∧ nonce = text "nonce" ∧
        n = namedFor (first ++ bar :: rest) := by
      simpa [resplitActs] using hmem
    exact ⟨by decide, plain_namedFor _, sop, hsop, step, hstep, hid.symm⟩
  · intro hfree scheme acts hsteps hunforged
    refine sound_of_plain hunforged fun now nonce n hmem => ?_
    obtain ⟨hnonce, hplain, sop, hsop, step, hstep, hid⟩ := hsteps now nonce n hmem
    refine ⟨hnonce, hplain, ?_⟩
    rw [hid, bar_mem_text]
    exact hfree sop hsop step hstep

/-! ## An SOP with a bar -/

/-- Two instants, and the time between them that a grant is good for. -/
def twoInstants : Floats where
  F := Bool
  repr late := if late then text "1060.0" else text "1000.0"
  parse t := if t = text "1060.0" then some true else if t = text "1000.0" then some false else none
  later _ := true
  reached now expiry := now || !expiry
  parse_repr := by decide
  encodes_repr := by decide
  bar_repr := by decide
  lasts := ⟨false, rfl⟩

/-- The id of the first step holds a bar. -/
def barredSop : SOP :=
  { actingSop with
    steps := actingSop.steps.map fun step =>
      if step.stepId = "restart" then { step with stepId := "restart|b" } else step }

theorem barredSop_accepted : validateSop actingSite.eng.catalog barredSop = [] := by decide +kernel

/-- **A grant can be presented for another call.** -/
theorem grant_resplit : ¬ ∀ (fl : Floats) (cat : Catalog) (sops : Set (AcceptedSop cat)) scheme
    (acts : List (Act fl)), ForSteps sops acts → Unforged scheme acts → Sound scheme acts := by
  intro hall
  have hfree := (grants_sound twoInstants actingSite.eng.catalog
    {⟨barredSop, barredSop_accepted⟩}).mp (hall _ _ _)
  have hstep := hfree _ (Set.mem_singleton _)
  revert hstep
  decide

end Signed
end L1Agent
