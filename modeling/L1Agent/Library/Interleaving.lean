import L1Agent.Library.Program
import Mathlib.Logic.Relation

/-! # Interleaved runs and the rely-guarantee rule

A `System` says what each operation does to the state the programs share.  A
`Config` is that state together with a pool of running programs.  In one step a
program is started, one running program performs its next operation, or one is
stopped for good, which covers both a program that has ended and one whose
process dies.  Thread identifiers are never used twice.

`Protocol` gives an invariant of the shared state and, for each thread, a
guarantee about what its operations change.  `Program.Keeps` is the weakest
precondition of a program under interference: before each operation the other
threads may have changed the state in any way their guarantees allow.  The rule
(`Protocol.sound_reaches`) is the usual one: if every program that may be started
keeps the protocol, the invariant holds in every reachable state.
-/
namespace Interleaving

/-- The operations' meaning.  `run t o c s` is what operation `o` of thread `t`
answers and leaves behind in state `s`; `c` settles what the operation itself
does not determine (a remote party's answer), and `none` means that `c` is no
possible choice here. -/
structure System (E : Signature) (ε σ : Type) where
  Choice : Type
  run : Nat → (o : E.Op) → Choice → σ → Option (E.Ans o × σ)
  /-- The programs that may be started. -/
  Entry : Program E ε Unit → Prop

/-- The shared state and the programs that are running. -/
structure Config (E : Signature) (ε σ : Type) where
  shared : σ
  pool : Nat → Option (Program E ε Unit)
  /-- No identifier from here on has been used. -/
  fresh : Nat

namespace Config
variable {E : Signature} {ε σ : Type}

/-- A state with nothing running. -/
def idle (s : σ) : Config E ε σ := ⟨s, fun _ => none, 0⟩

/-- `p` runs under the next unused identifier. -/
def start (c : Config E ε σ) (p : Program E ε Unit) : Config E ε σ :=
  { c with pool := Function.update c.pool c.fresh (some p), fresh := c.fresh + 1 }

/-- Thread `t` has moved on to `p`, leaving `s` behind. -/
def advance (c : Config E ε σ) (t : Nat) (p : Program E ε Unit) (s : σ) : Config E ε σ :=
  { c with shared := s, pool := Function.update c.pool t (some p) }

/-- Thread `t` is gone. -/
def stop (c : Config E ε σ) (t : Nat) : Config E ε σ :=
  { c with pool := Function.update c.pool t none }

@[simp] theorem start_shared (c : Config E ε σ) (p : Program E ε Unit) :
    (c.start p).shared = c.shared := rfl
@[simp] theorem advance_shared (c : Config E ε σ) (t : Nat) (p : Program E ε Unit) (s : σ) :
    (c.advance t p s).shared = s := rfl
@[simp] theorem stop_shared (c : Config E ε σ) (t : Nat) : (c.stop t).shared = c.shared := rfl

end Config

variable {E : Signature} {ε σ : Type} (sys : System E ε σ)

/-- A condition on a step: the thread, its operation, the choice, and the shared
state before the step. -/
abbrev System.Cond := Nat → (o : E.Op) → sys.Choice → σ → Prop

/-- One step of a run whose operations meet `cond`. -/
inductive System.Step (cond : sys.Cond) : Config E ε σ → Config E ε σ → Prop where
  | start (c : Config E ε σ) (p : Program E ε Unit) (hp : sys.Entry p) : Step cond c (c.start p)
  | op (c : Config E ε σ) (t : Nat) (o : E.Op) (k : E.Ans o → Program E ε Unit)
      (ch : sys.Choice) (a : E.Ans o) (s : σ) (hp : c.pool t = some (.call o k))
      (hc : cond t o ch c.shared) (hr : sys.run t o ch c.shared = some (a, s)) :
      Step cond c (c.advance t (k a) s)
  | stop (c : Config E ε σ) (t : Nat) : Step cond c (c.stop t)

/-- The configurations a run from `c` can reach when each of its operations meets
`cond`. -/
def System.Reaches (cond : sys.Cond) : Config E ε σ → Config E ε σ → Prop :=
  Relation.ReflTransGen (sys.Step cond)

/-- No condition on the steps. -/
def System.anyStep : sys.Cond := fun _ _ _ _ => True

/-! ## Invariants of the operations -/

/-- A reflexive and transitive relation that every operation keeps to holds between the ends of
a run. -/
theorem System.reaches_rel {cond : sys.Cond} {R : σ → σ → Prop} (hrefl : ∀ s, R s s)
    (htrans : ∀ a b c, R a b → R b c → R a c)
    (h : ∀ t o ch s a s', cond t o ch s → sys.run t o ch s = some (a, s') → R s s')
    {c d : Config E ε σ} (hr : sys.Reaches cond c d) : R c.shared d.shared := by
  induction hr with
  | refl => exact hrefl _
  | tail _ hs ih =>
    cases hs with
    | start p hp => exact ih
    | op t o k ch a s hp hcond hrun => exact htrans _ _ _ ih (h t o ch _ a s hcond hrun)
    | stop t => exact ih

/-- Every running program calls only operations that satisfy `P`. -/
def Config.Issues (P : E.Op → Prop) (c : Config E ε σ) : Prop :=
  ∀ t p, c.pool t = some p → p.Issues P

theorem Config.issues_idle (P : E.Op → Prop) (s : σ) :
    (Config.idle s : Config E ε σ).Issues P := fun _ _ h => nomatch h

/-- What the operations that the programs call keep, every run keeps. -/
theorem System.reaches_issues {cond : sys.Cond} {P : E.Op → Prop} {I : σ → Prop}
    (hentry : ∀ p, sys.Entry p → p.Issues P)
    (h : ∀ t o ch s a s', P o → cond t o ch s → sys.run t o ch s = some (a, s') → I s → I s')
    {c d : Config E ε σ} (hr : sys.Reaches cond c d) (hpool : c.Issues P) (hc : I c.shared) :
    d.Issues P ∧ I d.shared := by
  induction hr with
  | refl => exact ⟨hpool, hc⟩
  | @tail c d _ hs ih =>
    obtain ⟨hissues, hinv⟩ := ih
    cases hs with
    | start p hp =>
      refine ⟨fun t q hq => ?_, hinv⟩
      simp only [Config.start, Function.update_apply] at hq
      split at hq
      · cases hq
        exact hentry p hp
      · exact hissues t q hq
    | op t o k ch a s hp hcond hrun =>
      have hcall := hissues t _ hp
      refine ⟨fun u q hq => ?_, h t o ch _ a s hcall.1 hcond hrun hinv⟩
      simp only [Config.advance, Function.update_apply] at hq
      split at hq
      · cases hq
        exact hcall.2 a
      · exact hissues u q hq
    | stop t =>
      refine ⟨fun u q hq => ?_, hinv⟩
      simp only [Config.stop, Function.update_apply] at hq
      split at hq
      · cases hq
      · exact hissues u q hq

/-! ## Playing a schedule

A schedule names the threads in the order in which they step, so that a run on
concrete programs can be evaluated. -/

/-- One entry of a schedule. -/
inductive System.Move where
  | start (p : Program E ε Unit)
  | op (t : Nat) (ch : sys.Choice)
  | stop (t : Nat)

/-- One move, if it is possible. -/
def System.play₁ (c : Config E ε σ) : sys.Move → Option (Config E ε σ)
  | .start p => some (c.start p)
  | .op t ch =>
    match c.pool t with
    | some (.call o k) => (sys.run t o ch c.shared).map fun r => c.advance t (k r.1) r.2
    | _ => none
  | .stop t => some (c.stop t)

/-- A whole schedule, if each of its moves is possible. -/
def System.play (c : Config E ε σ) : List sys.Move → Option (Config E ε σ)
  | [] => some c
  | m :: ms => (sys.play₁ c m).bind fun d => System.play d ms

/-- Every program a schedule starts may be started. -/
def System.Starts (ms : List sys.Move) : Prop := ∀ p, .start p ∈ ms → sys.Entry p

variable {sys} in
theorem System.Starts.start {p : Program E ε Unit} (hp : sys.Entry p) {ms : List sys.Move}
    (h : sys.Starts ms) : sys.Starts (.start p :: ms) := by
  intro q hq
  rcases List.mem_cons.mp hq with heq | hq
  · cases heq
    exact hp
  · exact h q hq

variable {sys} in
theorem System.Starts.append {ms ms' : List sys.Move} (h : sys.Starts ms) (h' : sys.Starts ms') :
    sys.Starts (ms ++ ms') := by
  intro p hp
  rcases List.mem_append.mp hp with hp | hp
  · exact h p hp
  · exact h' p hp

variable {sys} in
/-- The operations of one thread. -/
theorem System.Starts.ops {n t : Nat} {ch : sys.Choice} :
    sys.Starts (List.replicate n (.op t ch)) :=
  fun _ hp => nomatch List.eq_of_mem_replicate hp

variable {sys} in
/-- Operations of any threads. -/
theorem System.Starts.each {ops : List (Nat × sys.Choice)} :
    sys.Starts (ops.map fun x => .op x.1 x.2) := by
  intro p hp
  obtain ⟨x, -, hx⟩ := List.mem_map.mp hp
  cases hx

theorem System.play₁_step {c d : Config E ε σ} {m : sys.Move}
    (hm : ∀ p, m = .start p → sys.Entry p) (h : sys.play₁ c m = some d) :
    sys.Step sys.anyStep c d := by
  cases m with
  | start p => cases h; exact .start c p (hm p rfl)
  | stop t => cases h; exact .stop c t
  | op t ch =>
    simp only [play₁] at h
    split at h
    · rename_i o k hp
      obtain ⟨⟨a, s⟩, hr, rfl⟩ := Option.map_eq_some_iff.mp h
      exact .op c t o k ch a s hp trivial hr
    · cases h

theorem System.play_reaches {ms : List sys.Move} (hms : sys.Starts ms) {c d : Config E ε σ}
    (h : sys.play c ms = some d) : sys.Reaches sys.anyStep c d := by
  induction ms generalizing c with
  | nil => cases h; exact .refl
  | cons m ms ih =>
    obtain ⟨e, he, hd⟩ := Option.bind_eq_some_iff.mp h
    exact .head (sys.play₁_step (fun p hp => hms p (hp ▸ List.mem_cons_self ..)) he)
      (ih (fun p hp => hms p (List.mem_cons_of_mem _ hp)) hd)

/-- A whole schedule, if each of its moves is possible and each operation passes a check. -/
def System.playIf (ok : Nat → (o : E.Op) → sys.Choice → σ → Bool) (c : Config E ε σ) :
    List sys.Move → Option (Config E ε σ)
  | [] => some c
  | .op t ch :: ms =>
    match c.pool t with
    | some (.call o _) =>
      if ok t o ch c.shared then (sys.play₁ c (.op t ch)).bind fun d => System.playIf ok d ms
      else none
    | _ => none
  | m :: ms => (sys.play₁ c m).bind fun d => System.playIf ok d ms

/-- **A checked schedule** is a run whose operations meet the condition. -/
theorem System.playIf_reaches {ok : Nat → (o : E.Op) → sys.Choice → σ → Bool} {cond : sys.Cond}
    (hok : ∀ t o ch s, ok t o ch s = true → cond t o ch s) {ms : List sys.Move}
    (hms : sys.Starts ms) {c d : Config E ε σ} (h : sys.playIf ok c ms = some d) :
    sys.Reaches cond c d := by
  induction ms generalizing c with
  | nil =>
    cases h
    exact .refl
  | cons m ms ih =>
    have htail : sys.Starts ms := fun p hp => hms p (List.mem_cons_of_mem _ hp)
    cases m with
    | start p =>
      exact .head (.start c p (hms p (List.mem_cons_self ..))) (ih htail h)
    | stop t => exact .head (.stop c t) (ih htail h)
    | op t ch =>
      simp only [playIf, play₁] at h
      split at h
      · rename_i o k hp
        split at h
        · rename_i hcheck
          obtain ⟨e, he, hd⟩ := Option.bind_eq_some_iff.mp h
          obtain ⟨⟨a, s⟩, hr, rfl⟩ := Option.map_eq_some_iff.mp he
          exact .head (.op c t o k ch a s hp (hok t o ch c.shared hcheck) hr) (ih htail hd)
        · cases h
      · cases h

/-! ## Rely and guarantee -/

/-- An invariant of the shared state, and what an operation of each thread may
change. -/
structure Protocol (σ : Type) where
  Inv : σ → Prop
  Guar : Nat → σ → σ → Prop

namespace Protocol
variable (P : Protocol σ)

/-- What thread `t` may see another thread's operation do. -/
def Rely (t : Nat) (s s' : σ) : Prop := P.Inv s ∧ P.Inv s' ∧ ∃ u, u ≠ t ∧ P.Guar u s s'

/-- The assertion `A` survives the other threads' operations. -/
def Stable (t : Nat) (A : σ → Prop) : Prop := ∀ s s', P.Rely t s s' → A s → A s'

variable {P}

theorem Stable.and {t : Nat} {A B : σ → Prop} (hA : P.Stable t A) (hB : P.Stable t B) :
    P.Stable t fun s => A s ∧ B s :=
  fun s s' h hs => ⟨hA s s' h hs.1, hB s s' h hs.2⟩

theorem Stable.or {t : Nat} {A B : σ → Prop} (hA : P.Stable t A) (hB : P.Stable t B) :
    P.Stable t fun s => A s ∨ B s :=
  fun s s' h hs => hs.imp (hA s s' h) (hB s s' h)

theorem Stable.imp {t : Nat} {p : Prop} {A : σ → Prop} (hA : P.Stable t A) :
    P.Stable t fun s => p → A s :=
  fun s s' h hs hp => hA s s' h (hs hp)

theorem Stable.const {t : Nat} (p : Prop) : P.Stable t fun _ => p := fun _ _ _ h => h

theorem Stable.many {t : Nat} {A : σ → Prop} (hA : P.Stable t A) {s s' : σ}
    (h : Relation.ReflTransGen (P.Rely t) s s') (hs : A s) : A s' := by
  induction h with
  | refl => exact hs
  | tail _ hstep ih => exact hA _ _ hstep ih

/-- The assertion `A` survives every operation, the thread's own included. -/
def Persistent (P : Protocol σ) (A : σ → Prop) : Prop :=
  ∀ u s s', P.Inv s → P.Inv s' → P.Guar u s s' → A s → A s'

theorem Persistent.stable {A : σ → Prop} (hA : P.Persistent A) (t : Nat) : P.Stable t A :=
  fun s s' ⟨hi, hi', u, _, hg⟩ hs => hA u s s' hi hi' hg hs

theorem Persistent.and {A B : σ → Prop} (hA : P.Persistent A) (hB : P.Persistent B) :
    P.Persistent fun s => A s ∧ B s :=
  fun u s s' hi hi' hg hs => ⟨hA u s s' hi hi' hg hs.1, hB u s s' hi hi' hg hs.2⟩

theorem Persistent.imp {p : Prop} {A : σ → Prop} (hA : P.Persistent A) :
    P.Persistent fun s => p → A s :=
  fun u s s' hi hi' hg hs hp => hA u s s' hi hi' hg (hs hp)

theorem Persistent.const (p : Prop) : P.Persistent fun _ => p := fun _ _ _ _ _ _ h => h

end Protocol

variable {sys} {cond : sys.Cond} {P : Protocol σ} {α β : Type}

/-- **The weakest precondition under interference.**  From `s`, thread `t`
running the program keeps the protocol `P` whatever the other threads do in
between, and ends only in results that satisfy `Q`, provided that its operations
meet `cond`. -/
def Program.Keeps (sys : System E ε σ) (cond : sys.Cond) (P : Protocol σ) (t : Nat) :
    Program E ε α → (Except ε α → σ → Prop) → σ → Prop
  | .ret a, Q, s => Q (.ok a) s
  | .raise e, Q, s => Q (.error e) s
  | .call o k, Q, s => ∀ s₁, Relation.ReflTransGen (P.Rely t) s s₁ → P.Inv s₁ →
      ∀ ch a s₂, cond t o ch s₁ → sys.run t o ch s₁ = some (a, s₂) →
        P.Inv s₂ ∧ P.Guar t s₁ s₂ ∧ Program.Keeps sys cond P t (k a) Q s₂

/-- An assertion about the results of a program that says nothing of its exceptions. -/
def onOk (Q : α → σ → Prop) : Except ε α → σ → Prop
  | .ok a, s => Q a s
  | .error _, _ => True

namespace Program
variable {t : Nat} {Q : Except ε α → σ → Prop} {s : σ}

/-- The rule for one operation: an assertion that holds now and is stable holds
when the operation is carried out. -/
theorem Keeps.call {o : E.Op} {k : E.Ans o → Program E ε α} {A : σ → Prop}
    (hA : P.Stable t A) (hs : A s)
    (h : ∀ s₁, P.Inv s₁ → A s₁ → ∀ ch a s₂, cond t o ch s₁ → sys.run t o ch s₁ = some (a, s₂) →
      P.Inv s₂ ∧ P.Guar t s₁ s₂ ∧ (k a).Keeps sys cond P t Q s₂) :
    (Program.call o k).Keeps sys cond P t Q s :=
  fun s₁ hr hi ch a s₂ hc hrun => h s₁ hi (hA.many hr hs) ch a s₂ hc hrun

theorem Keeps.mono {p : Program E ε α} {Q' : Except ε α → σ → Prop}
    (h : p.Keeps sys cond P t Q s) (hQ : ∀ r s', Q r s' → Q' r s') : p.Keeps sys cond P t Q' s := by
  induction p generalizing s with
  | ret a => exact hQ _ _ h
  | raise e => exact hQ _ _ h
  | call o k ih =>
    intro s₁ hr hi ch a s₂ hc hrun
    obtain ⟨h1, h2, h3⟩ := h s₁ hr hi ch a s₂ hc hrun
    exact ⟨h1, h2, ih a h3⟩

/-- What a program keeps, it still keeps after interference. -/
theorem Keeps.stable {p : Program E ε α} (hQ : ∀ r, P.Stable t (Q r)) :
    P.Stable t (p.Keeps sys cond P t Q) := by
  intro s s' hr hs
  cases p with
  | ret a => exact hQ _ s s' hr hs
  | raise e => exact hQ _ s s' hr hs
  | call o k => exact fun s₁ hr₁ hi => hs s₁ (.head hr hr₁) hi

theorem Keeps.bind {p : Program E ε α} {f : α → Program E ε β} {R : Except ε β → σ → Prop}
    (h : p.Keeps sys cond P t (fun r s' => match r with
      | .ok a => (f a).Keeps sys cond P t R s'
      | .error e => R (.error e) s') s) : (p.bind f).Keeps sys cond P t R s := by
  induction p generalizing s with
  | ret a => exact h
  | raise e => exact h
  | call o k ih =>
    intro s₁ hr hi ch a s₂ hc hrun
    obtain ⟨h1, h2, h3⟩ := h s₁ hr hi ch a s₂ hc hrun
    exact ⟨h1, h2, ih a h3⟩

theorem Keeps.tryCatch {p : Program E ε α} {f : ε → Program E ε α}
    (h : p.Keeps sys cond P t (fun r s' => match r with
      | .ok a => Q (.ok a) s'
      | .error e => (f e).Keeps sys cond P t Q s') s) : (p.tryCatch f).Keeps sys cond P t Q s := by
  induction p generalizing s with
  | ret a => exact h
  | raise e => exact h
  | call o k ih =>
    intro s₁ hr hi ch a s₂ hc hrun
    obtain ⟨h1, h2, h3⟩ := h s₁ hr hi ch a s₂ hc hrun
    exact ⟨h1, h2, ih a h3⟩

theorem Keeps.ite {φ : Prop} [Decidable φ] {p q : Program E ε α}
    (hp : φ → p.Keeps sys cond P t Q s) (hq : ¬ φ → q.Keeps sys cond P t Q s) :
    (if φ then p else q).Keeps sys cond P t Q s := by
  split
  · exact hp ‹_›
  · exact hq ‹_›

/-- What a program ends with, taken as a value. -/
theorem Keeps.attempt {p : Program E ε α} (h : p.Keeps sys cond P t Q s) :
    (p.attempt : Program E ε (Except ε α)).Keeps sys cond P t (onOk Q) s := by
  induction p generalizing s with
  | ret a => exact h
  | raise e => exact h
  | call o k ih =>
    intro s₁ hr hi ch a s₂ hc hrun
    obtain ⟨h1, h2, h3⟩ := h s₁ hr hi ch a s₂ hc hrun
    exact ⟨h1, h2, ih a h3⟩

/-- **Framing.**  What no operation changes is still there when the program ends. -/
theorem Keeps.frame {p : Program E ε α} {A : σ → Prop} (hA : P.Persistent A)
    (h : p.Keeps sys cond P t Q s) (hs : A s) :
    p.Keeps sys cond P t (fun r s' => Q r s' ∧ A s') s := by
  induction p generalizing s with
  | ret a => exact ⟨h, hs⟩
  | raise e => exact ⟨h, hs⟩
  | call o k ih =>
    intro s₁ hr hi ch a s₂ hc hrun
    obtain ⟨h1, h2, h3⟩ := h s₁ hr hi ch a s₂ hc hrun
    exact ⟨h1, h2, ih a h3 (hA t s₁ s₂ hi h1 h2 ((hA.stable t).many hr hs))⟩

/-! ### Triples

The rules in the form in which they are used: from `A`, a result satisfies `B`; of
exceptions nothing is said. -/

/-- **A triple.**  From every state that satisfies `A`, the program keeps the protocol, and
its results satisfy `B`. -/
def Triple (sys : System E ε σ) (cond : sys.Cond) (P : Protocol σ) (t : Nat) (A : σ → Prop)
    (p : Program E ε α) (B : α → σ → Prop) : Prop :=
  ∀ s, A s → p.Keeps sys cond P t (onOk B) s

variable {A A' : σ → Prop} {B B' : α → σ → Prop} {R : β → σ → Prop}

theorem Triple.raise {e : ε} : Triple sys cond P t A (.raise e) B := fun _ _ => True.intro

/-- The rule of sequence. -/
theorem Triple.bind {p : Program E ε α} {f : α → Program E ε β}
    (hp : Triple sys cond P t A p B) (hf : ∀ a, Triple sys cond P t (B a) (f a) R) :
    Triple sys cond P t A (p.bind f) R := by
  intro s hs
  refine Keeps.bind ((hp s hs).mono fun r s' hr => ?_)
  cases r with
  | ok a => exact hf a s' hr
  | error e => exact True.intro

/-- The rule of consequence. -/
theorem Triple.conseq {p : Program E ε α} (h : Triple sys cond P t A p B)
    (hA : ∀ s, A' s → A s) (hB : ∀ a s, B a s → B' a s) : Triple sys cond P t A' p B' := by
  intro s hs
  refine (h s (hA s hs)).mono fun r s' hr => ?_
  cases r with
  | ok a => exact hB a s' hr
  | error e => exact True.intro

theorem Triple.pre {p : Program E ε α} (h : Triple sys cond P t A p B)
    (hA : ∀ s, A' s → A s) : Triple sys cond P t A' p B := h.conseq hA fun _ _ hb => hb

theorem Triple.post {p : Program E ε α} (h : Triple sys cond P t A p B)
    (hB : ∀ a s, B a s → B' a s) : Triple sys cond P t A p B' := h.conseq (fun _ ha => ha) hB

/-- **The frame rule**: an assertion that every operation leaves true may be added. -/
theorem Triple.frame {p : Program E ε α} {F : σ → Prop} (hF : P.Persistent F)
    (h : Triple sys cond P t A p B) :
    Triple sys cond P t (fun s => A s ∧ F s) p fun a s => B a s ∧ F s := by
  intro s hs
  refine ((h s hs.1).frame hF hs.2).mono fun r s' hr => ?_
  cases r with
  | ok a => exact hr
  | error e => exact True.intro

theorem Triple.ofExcept {r : Except ε α} (h : ∀ a, r = .ok a → ∀ s, A s → B a s) :
    Triple sys cond P t A (Program.ofExcept r) B := by
  intro s hs
  cases r with
  | ok a => exact h a rfl s hs
  | error e => exact True.intro

/-- What a program ends with is known where it ends well. -/
theorem Triple.attempt {p : Program E ε α} (h : Triple sys cond P t A p B) :
    Triple sys cond P t A (p.attempt : Program E ε (Except ε α)) (onOk B) :=
  fun s hs => (h s hs).attempt

/-- A handler that needs no more than what nothing changes. -/
theorem Triple.tryCatch {p : Program E ε α} {f : ε → Program E ε α} {F : σ → Prop}
    (hF : P.Persistent F) (h : Triple sys cond P t A p B)
    (hf : ∀ e, Triple sys cond P t F (f e) B) :
    Triple sys cond P t (fun s => A s ∧ F s) (p.tryCatch f) B := by
  intro s hs
  refine Keeps.tryCatch (((h s hs.1).frame hF hs.2).mono fun r s' hr => ?_)
  cases r with
  | ok a => exact hr.1
  | error e => exact hf e s' hr.2

end Program

namespace Protocol

/-- Every program that may be started keeps the protocol, from every state that
satisfies the invariant. -/
def Obeyed (P : Protocol σ) (sys : System E ε σ) (cond : sys.Cond) : Prop :=
  ∀ p, sys.Entry p → ∀ t s, P.Inv s → p.Keeps sys cond P t (fun _ _ => True) s

/-- The invariant, together with the claim that each running program keeps the
protocol from here on. -/
def Sound (P : Protocol σ) (sys : System E ε σ) (cond : sys.Cond) (c : Config E ε σ) : Prop :=
  P.Inv c.shared ∧ ∀ t p, c.pool t = some p → p.Keeps sys cond P t (fun _ _ => True) c.shared

theorem sound_idle {s : σ} (hs : P.Inv s) : P.Sound sys cond (Config.idle s) :=
  ⟨hs, fun _ _ h => by cases h⟩

/-- **One step** of a sound configuration leads to a sound one, and changes the
shared state only as some thread's guarantee allows. -/
theorem sound_step (hobey : P.Obeyed sys cond) {c d : Config E ε σ}
    (hc : P.Sound sys cond c) (hs : sys.Step cond c d) :
    P.Sound sys cond d ∧ (d.shared = c.shared ∨ ∃ t, P.Guar t c.shared d.shared) := by
  obtain ⟨hinv, hpool⟩ := hc
  cases hs with
  | start p hp =>
    refine ⟨⟨hinv, fun t q hq => ?_⟩, Or.inl rfl⟩
    by_cases ht : t = c.fresh
    · subst ht
      obtain rfl : p = q := by simpa [Config.start] using hq
      exact hobey p hp _ _ hinv
    · exact hpool t q (by simpa [Config.start, Function.update_of_ne ht] using hq)
  | stop u =>
    refine ⟨⟨hinv, fun t q hq => ?_⟩, Or.inl rfl⟩
    by_cases ht : t = u
    · subst ht
      simp [Config.stop] at hq
    · exact hpool t q (by simpa [Config.stop, Function.update_of_ne ht] using hq)
  | op u o k ch a s hp hc hr =>
    obtain ⟨hi, hg, hk⟩ := hpool u _ hp c.shared .refl hinv ch a s hc hr
    refine ⟨⟨hi, fun t q hq => ?_⟩, Or.inr ⟨u, hg⟩⟩
    by_cases ht : t = u
    · subst ht
      obtain rfl : k a = q := by simpa [Config.advance] using hq
      exact hk
    · have hq' : c.pool t = some q := by
        simpa [Config.advance, Function.update_of_ne ht] using hq
      exact Program.Keeps.stable (fun _ => Stable.const True) _ _
        ⟨hinv, hi, u, fun h => ht h.symm, hg⟩ (hpool t q hq')

/-- **The rely-guarantee rule.**  In every reachable state the invariant holds, and what is running
keeps the protocol. -/
theorem sound_reaches (hobey : P.Obeyed sys cond) {c d : Config E ε σ}
    (hc : P.Sound sys cond c) (hr : sys.Reaches cond c d) : P.Sound sys cond d := by
  induction hr with
  | refl => exact hc
  | tail _ hs ih => exact (sound_step hobey ih hs).1

/-- A reflexive and transitive relation that contains every guarantee holds
between the ends of a run. -/
theorem reach_rel (hobey : P.Obeyed sys cond) {R : σ → σ → Prop} (hrefl : ∀ s, R s s)
    (htrans : ∀ a b c, R a b → R b c → R a c) (hguar : ∀ t s s', P.Guar t s s' → R s s')
    {c d : Config E ε σ} (hc : P.Sound sys cond c) (hr : sys.Reaches cond c d) :
    R c.shared d.shared := by
  induction hr with
  | refl => exact hrefl _
  | tail hr hs ih =>
    rcases (sound_step hobey (sound_reaches hobey hc hr) hs).2 with h | ⟨t, h⟩
    · rw [h]; exact ih
    · exact htrans _ _ _ ih (hguar t _ _ h)

end Protocol
end Interleaving
