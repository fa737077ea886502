import L1Agent.Actions.Truth

/-! # The protocol of the action pipeline

The invariant and the guarantees under which the coroutines of the pipeline are verified,
and the rule for each operation that they use.  `hon` says whether the statuses are to be
kept true as well: that takes steps that are `Faithful`.  With `hon` false the protocol is
the one that every run keeps.

The rule for one operation (`ask`) is the one through which every triple of the pipeline is proved;
a step that does not touch the ledger leaves it as it was (`Op.quiet_effect`).
-/
namespace L1Agent
open Interleaving

/-- The coroutines of a deployment, where those of `entry` may be started. -/
def Site.system (site : Site) (entry : Prog Unit → Prop) : System Calls Exn Estate where
  Choice := Choice
  run t o ch s := Op.step site t o ch s
  Entry := entry

/-- **The conditions under which the statuses are true.**  A write that was performed is
answered with success, or, where it is not the rollback, with the exception that says that
its outcome is unknown.  An attempt that ends an action does not do so while another
attempt's rollback is under way, and one that found the write verified is not too late to
say so. -/
def Op.Faithful (t : Nat) (ch : Choice) (l : Ledger) : Op → Prop
  | .write p _ _ _ => ch.performed = true →
      (∃ a, ch.written = .ok a ∧ a.success = true) ∨
        (p = .write ∧ ∃ e, ch.written = .error e ∧ e.kind = "OutcomeUnknown")
  | .db (.transition id fromStatuses toStatus _ _ values _) =>
      ∀ r, l.actions.get? id = some r →
        (toStatus = .verified → r.status ∈ fromStatuses ∨ r.status = .verified) ∧
        ((toStatus = .failed ∧ values.result.any (·.unknown) = false) ∨
            toStatus = .rollbackFailed →
          r.status = .rollingBack → l.Did t (.rollbackAuthorised id))
  | _ => True

/-- The invariant of the ledger. -/
structure Ledger.Good (site : Site) (hon : Prop) (l : Ledger) : Prop where
  regular : l.Regular site
  truthful : hon → l.Truthful site

/-- What a coroutine does to the ledger. -/
structure Ledger.Moves (hon : Prop) (t : Nat) (l l' : Ledger) : Prop where
  grows : l.Grows t l'
  respects : hon → l.Respects t l'

/-- **The protocol.** -/
def actionProtocol (site : Site) (hon : Prop) : Protocol Estate where
  Inv s := s.ledger.Good site hon
  Guar t s s' := s.ledger.Moves hon t s'.ledger

theorem Ledger.Moves.refl (hon : Prop) (t : Nat) (l : Ledger) : l.Moves hon t l :=
  ⟨.refl t l, fun _ => respects_of_rows rfl⟩

/-- A step about which nothing fails has the effect of its operation; one that fails has it
or not, and answers with an exception. -/
theorem Op.step_cases {site : Site} {t : Nat} {o : Op} {ch : Choice} {s s' : Estate}
    {answer : Except Exn o.Val} (h : o.step site t ch s = some (answer, s')) :
    ∃ v s₁, o.effect site t ch (s.later ch.elapsed) = some (v, s₁) ∧
      ((answer = v ∧ s' = s₁) ∨
        (∃ e, answer = .error e ∧ (s' = s₁ ∨ s' = s.later ch.elapsed) ∧
          o.failure ch = some e)) := by
  obtain ⟨⟨v, s₁⟩, heffect, hmatch⟩ := Option.map_eq_some_iff.mp h
  refine ⟨v, s₁, heffect, ?_⟩
  cases hf : o.failure ch with
  | none =>
    rw [hf] at hmatch
    cases hmatch
    exact .inl ⟨rfl, rfl⟩
  | some e =>
    rw [hf] at hmatch
    cases hmatch
    refine .inr ⟨e, rfl, ?_, rfl⟩
    cases ch.landed
    · exact .inr rfl
    · exact .inl rfl

/-- What a transaction leaves: it failed and nothing was written, or it committed. -/
theorem Op.db_effect {site : Site} {t : Nat} {c : DbCall} {ch : Choice} {s s' : Estate}
    {v : Except Exn c.Val} (h : (Op.db c).effect site t ch s = some (v, s')) :
    (∃ e, v = .error e ∧ s' = s) ∨
      ∃ a rows, c.run site s.now ch.pick s.db = .ok (a, rows) ∧ v = .ok a ∧
        s' = (c.deed a).elim { s with db := rows } (Estate.did { s with db := rows } t) := by
  simp only [effect] at h
  cases hrun : c.run site s.now ch.pick s.db with
  | error e =>
    rw [hrun] at h
    cases h
    exact .inl ⟨e, rfl, rfl⟩
  | ok r =>
    rw [hrun] at h
    cases h
    exact .inr ⟨r.1, r.2, rfl, rfl, rfl⟩

/-! ## Transactions that are not about actions -/

/-- Whether the transaction leaves the actions alone. -/
def DbCall.quiet : DbCall → Bool
  | recordDecision .. | transition .. | note .. | authoriseExecution .. | decide .. => false
  | _ => true

/-- Whether the step leaves the ledger alone. -/
def Op.quiet : Op → Bool
  | db c => c.quiet
  | mint .. | write .. | closeChange .. => false
  | callAdapter _ _ _ _ looking => looking.isNone
  | _ => true

theorem OnlySops.actions {α : Type} {db db' : Db} {v : α} {x : Except Exn (α × Db)}
    (h : OnlySops db x) (hx : x = .ok (v, db')) : db'.actions = db.actions := by
  obtain ⟨_, _, rfl⟩ := h v db' hx
  rfl

theorem DbCall.quiet_run {site : Site} {now pick : Nat} {c : DbCall} (hq : c.quiet = true)
    {db db' : Db} {v : c.Val} (h : c.run site now pick db = .ok (v, db')) :
    db'.actions = db.actions := by
  cases c with
  | recordDecision | transition | note | authoriseExecution | decide => cases hq
  | createDraft actor content => exact (createDraft_only _ actor pick content).actions h
  | updateDraft actor id content => exact (updateDraft_only _ actor id content).actions h
  | discardDraft actor id => exact (discardDraft_only actor id).actions h
  | submitDraft actor id => exact (submitDraft_only _ _ actor id).actions h
  | approveVersion actor id hash => exact (approveVersion_only actor id hash).actions h
  | requestChanges actor id text => exact (requestChanges_only actor id text).actions h
  | publishVersion actor id => exact (publishVersion_only _ actor id).actions h
  | retireSop actor key => exact (retireSop_only actor key).actions h
  | get id =>
    simp only [run, getAction] at h
    split at h <;> cases h
    rfl
  | ingest actor source incident =>
    simp only [run, L1Agent.ingest] at h
    split at h <;> cases h <;> rfl
  | claimJob worker =>
    simp only [run, L1Agent.claimJob] at h
    split at h <;> cases h <;> rfl
  | loadRun runId =>
    simp only [run] at h
    cases hload : L1Agent.loadRun runId db with
    | error e =>
      rw [hload] at h
      cases h
    | ok r =>
      rw [hload] at h
      cases h
      rfl
  | loadJournal runId =>
    simp only [run] at h
    cases hload : L1Agent.loadJournal runId db with
    | error e =>
      rw [hload] at h
      cases h
    | ok r =>
      rw [hload] at h
      cases h
      rfl
  | _ =>
    cases h
    rfl

/-- **A quiet step** leaves the ledger as it was. -/
theorem Op.quiet_effect {site : Site} {t : Nat} {o : Op} (hq : o.quiet = true) {ch : Choice}
    {s s' : Estate} {v : Except Exn o.Val} (h : o.effect site t ch s = some (v, s')) :
    s'.ledger = s.ledger := by
  cases o with
  | mint | write | closeChange => cases hq
  | callAdapter name parameters stepId attempt looking =>
    cases looking with
    | none =>
      cases h
      rfl
    | some l => cases hq
  | db c =>
    rcases Op.db_effect h with ⟨e, -, rfl⟩ | ⟨a, rows, hrun, -, rfl⟩
    · rfl
    · have hactions : rows.actions = s.db.actions := DbCall.quiet_run hq hrun
      have hdeed : c.deed a = none := by
        cases c <;> first | rfl | cases hq
      rw [hdeed]
      show Ledger.mk rows.actions s.issued s.deeds = _
      rw [hactions]
      rfl
  | _ =>
    cases h
    rfl

theorem Op.quiet_step {site : Site} {t : Nat} {o : Op} (hq : o.quiet = true) {ch : Choice}
    {s s' : Estate} {answer : Except Exn o.Val} (h : o.step site t ch s = some (answer, s')) :
    s'.ledger = s.ledger := by
  obtain ⟨v, s₁, heffect, hcases⟩ := Op.step_cases h
  have hsame : s₁.ledger = (s.later ch.elapsed).ledger := Op.quiet_effect hq heffect
  rcases hcases with ⟨rfl, rfl⟩ | ⟨e, rfl, rfl | rfl, -⟩
  · exact hsame
  · exact hsame
  · rfl

/-! ## Triples about the ledger -/

section
variable {site : Site} {entry : Prog Unit → Prop} (hon : Prop)
  (cond : (site.system entry).Cond) (t : Nat)

/-- A triple whose assertions are about the ledger. -/
def Spec {α : Type} (A : Ledger → Prop) (p : Prog α) (B : α → Ledger → Prop) : Prop :=
  Program.Triple (site.system entry) cond (actionProtocol site hon) t (fun s => A s.ledger) p
    fun a s => B a s.ledger

end

section
variable (site : Site) (hon : Prop) (t : Nat)

/-- The assertion survives the steps of other coroutines. -/
def Steady (A : Ledger → Prop) : Prop :=
  (actionProtocol site hon).Stable t fun s => A s.ledger

/-- The assertion survives every step. -/
def Lasting (A : Ledger → Prop) : Prop :=
  (actionProtocol site hon).Persistent fun s => A s.ledger

end

variable {site : Site} {entry : Prog Unit → Prop} {hon : Prop}
  {cond : (site.system entry).Cond} {t : Nat} {α β : Type}
  {A A' F : Ledger → Prop} {B B' : α → Ledger → Prop} {R : β → Ledger → Prop}

theorem steady_of (h : ∀ u l l', t ≠ u → Ledger.Good site hon l → Ledger.Good site hon l' →
    l.Moves hon u l' → A l → A l') : Steady site hon t A := by
  rintro _ _ ⟨hi, hi', u, hut, hg⟩ hs
  exact h u _ _ (Ne.symm hut) hi hi' hg hs

theorem lasting_of (h : ∀ u l l', l.Grows u l' → A l → A l') : Lasting site hon A :=
  fun u _ _ _ _ hg hs => h u _ _ hg.grows hs

theorem Lasting.steady (h : Lasting site hon A) : Steady site hon t A :=
  Protocol.Persistent.stable h t

theorem Steady.and (hA : Steady site hon t A) (hF : Steady site hon t F) :
    Steady site hon t fun l => A l ∧ F l := Protocol.Stable.and hA hF

theorem Steady.const (p : Prop) : Steady site hon t fun _ => p :=
  Protocol.Stable.const p

theorem Lasting.const (p : Prop) : Lasting site hon fun _ => p :=
  Protocol.Persistent.const p

namespace Spec

theorem ret {a : α} (h : ∀ l, A l → B a l) : Spec hon cond t A (.ret a) B := fun s => h s.ledger

theorem raise {e : Exn} : Spec hon cond t A (.raise e) B := Program.Triple.raise

theorem bind {p : Prog α} {f : α → Prog β} (hp : Spec hon cond t A p B)
    (hf : ∀ a, Spec hon cond t (B a) (f a) R) : Spec hon cond t A (p.bind f) R :=
  Program.Triple.bind hp hf

theorem conseq {p : Prog α} (h : Spec hon cond t A p B) (hA : ∀ l, A' l → A l)
    (hB : ∀ a l, B a l → B' a l) : Spec hon cond t A' p B' :=
  Program.Triple.conseq h (fun s => hA s.ledger) fun a s => hB a s.ledger

theorem pre {p : Prog α} (h : Spec hon cond t A p B) (hA : ∀ l, A' l → A l) :
    Spec hon cond t A' p B := h.conseq hA fun _ _ hb => hb

theorem post {p : Prog α} (h : Spec hon cond t A p B) (hB : ∀ a l, B a l → B' a l) :
    Spec hon cond t A p B' := h.conseq (fun _ ha => ha) hB

theorem frame {p : Prog α} (hF : Lasting site hon F) (h : Spec hon cond t A p B) :
    Spec hon cond t (fun l => A l ∧ F l) p fun a l => B a l ∧ F l :=
  Program.Triple.frame hF h

theorem ofExcept {r : Except Exn α} (h : ∀ a, r = .ok a → ∀ l, A l → B a l) :
    Spec hon cond t A (Program.ofExcept r) B :=
  Program.Triple.ofExcept fun a ha s => h a ha s.ledger

theorem attempt {p : Prog α} (h : Spec hon cond t A p B) :
    Spec hon cond t A (p.attempt : Prog (Except Exn α)) fun r l =>
      match r with
      | .ok a => B a l
      | .error _ => True := by
  refine Program.Triple.post (Program.Triple.attempt h) fun r s hr => ?_
  cases r <;> exact hr

theorem ite {φ : Prop} [Decidable φ] {p q : Prog α} (hp : φ → Spec hon cond t A p B)
    (hq : ¬ φ → Spec hon cond t A q B) : Spec hon cond t A (if φ then p else q) B := by
  split
  · exact hp ‹_›
  · exact hq ‹_›

theorem tryCatch {p : Prog α} {f : Exn → Prog α} (h : Spec hon cond t (fun _ => True) p B)
    (hf : ∀ e, Spec hon cond t (fun _ => True) (f e) B) :
    Spec hon cond t (fun _ => True) (p.tryCatch f) B :=
  Program.Triple.pre (Program.Triple.tryCatch (F := fun _ => True)
    (Protocol.Persistent.const True) h hf) fun _ _ => ⟨trivial, trivial⟩

/-- What is known of the arguments only may be used at once. -/
theorem of_pure {p : Prog α} {φ : Prop} (h : φ → Spec hon cond t A p B) :
    Spec hon cond t (fun l => φ ∧ A l) p B := fun s hs => h hs.1 s hs.2

/-- **The rule for one operation.** -/
theorem ask {o : Op} {C : o.Val → Ledger → Prop}
    (hcond : hon → ∀ t o ch s, cond t o ch s → Op.Faithful t ch s.ledger o)
    (hA : Steady site hon t A)
    (h : ∀ s ch v s', Ledger.Good site hon s.ledger → A s.ledger →
      (hon → o.Faithful t ch s.ledger) → o.effect site t ch s = some (v, s') →
        Ledger.Good site hon s'.ledger ∧ Ledger.Moves hon t s.ledger s'.ledger ∧
          ∀ a, v = .ok a → C a s'.ledger) : Spec hon cond t A (L1Agent.ask o) C := by
  intro s hs
  refine Program.Keeps.call hA hs fun s₁ hi hA₁ ch answer s₂ hc hrun => ?_
  obtain ⟨v, s₃, heffect, hcases⟩ := Op.step_cases hrun
  obtain ⟨hgood, hmoves, hC⟩ :=
    h (s₁.later ch.elapsed) ch v s₃ hi hA₁ (fun hh => hcond hh t o ch s₁ hc) heffect
  rcases hcases with ⟨rfl, rfl⟩ | ⟨e, rfl, rfl | rfl, -⟩
  · refine ⟨hgood, hmoves, ?_⟩
    cases answer with
    | ok a => exact hC a rfl
    | error e => exact True.intro
  · exact ⟨hgood, hmoves, True.intro⟩
  · exact ⟨hi, .refl hon t _, True.intro⟩

end Spec

/-- A program of quiet steps, whether it fails or not, leaves every assertion true. -/
theorem keeps_of_quiet {p : Prog α} (hp : p.Issues fun o => Op.quiet o = true)
    (hA : Steady site hon t A) {s : Estate} (hs : A s.ledger) :
    p.Keeps (site.system entry) cond (actionProtocol site hon) t (fun _ s' => A s'.ledger) s := by
  induction p generalizing s with
  | ret a => exact hs
  | raise e => exact hs
  | call o k ih =>
    refine Program.Keeps.call hA hs fun s₁ hi hA₁ ch answer s₂ hc hrun => ?_
    have hsame : s₂.ledger = s₁.ledger := Op.quiet_step hp.1 hrun
    refine ⟨?_, ?_, ih answer (hp.2 answer) ?_⟩
    · show Ledger.Good site hon s₂.ledger
      rw [hsame]
      exact hi
    · show Ledger.Moves hon t s₁.ledger s₂.ledger
      rw [hsame]
      exact .refl hon t _
    · show A s₂.ledger
      rw [hsame]
      exact hA₁

theorem issues_ask {P : Op → Prop} {o : Op} (h : P o) : (L1Agent.ask o).Issues P :=
  ⟨h, fun _ => Program.issues_ofExcept _⟩

theorem Spec.of_quiet {p : Prog α} (hp : p.Issues fun o => Op.quiet o = true)
    (hA : Steady site hon t A) : Spec hon cond t A p fun _ => A := by
  intro s hs
  refine (keeps_of_quiet hp hA hs).mono fun r s' hr => ?_
  cases r with
  | ok a => exact hr
  | error e => exact True.intro

theorem Spec.quiet {o : Op} (ho : o.quiet = true) (hA : Steady site hon t A) :
    Spec hon cond t A (L1Agent.ask o) fun _ => A := Spec.of_quiet (issues_ask ho) hA

end L1Agent
