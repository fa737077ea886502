import L1Agent.Library.Past

/-! # Programs under the answers that they can get

`Program.Follows` is about every answer, which is too much where an operation's answer is
bound to what was asked: a row that was asked for by its key has this key.  `FollowsFor` is
the same with an assumption about the answers, which may look at the past.  `Gives` is about what
a program calls and what it returns, with an assumption about each answer on its own.

For both there are the rules of sequence, of handlers and of branches, and one for a program whose
operations are carried out by programs (`FollowsFor.translate`, `Gives.translate`).
`System.recorded_followsFor` discharges the assumption against the history of a run, and
`System.recorded_gives` says of every event of a recorded run that its program calls it.
-/
namespace Interleaving

namespace Program
variable {E : Signature} {ε α β : Type} {A : List E.Done → E.Done → Prop}
  {Ok : List E.Done → E.Op → Prop} {past : List E.Done}

/-- **Whatever answers it gets that satisfy `A`**, the program calls what `Ok` allows, and it
ends in a past and a result that satisfy `Q`. -/
def FollowsFor (A : List E.Done → E.Done → Prop) (Ok : List E.Done → E.Op → Prop) :
    Program E ε α → List E.Done → (List E.Done → Except ε α → Prop) → Prop
  | ret a, past, Q => Q past (.ok a)
  | raise e, past, Q => Q past (.error e)
  | call o k, past, Q =>
    Ok past o ∧ ∀ x, A past ⟨o, x⟩ → FollowsFor A Ok (k x) (past ++ [⟨o, x⟩]) Q

namespace FollowsFor

theorem mono {p : Program E ε α} {Q Q' : List E.Done → Except ε α → Prop}
    (h : p.FollowsFor A Ok past Q) (hQ : ∀ past r, Q past r → Q' past r) :
    p.FollowsFor A Ok past Q' := by
  induction p generalizing past with
  | ret a => exact hQ _ _ h
  | raise e => exact hQ _ _ h
  | call o k ih => exact ⟨h.1, fun x hx => ih x (h.2 x hx)⟩

theorem bind {p : Program E ε α} {f : α → Program E ε β} {Q : List E.Done → Except ε β → Prop}
    (h : p.FollowsFor A Ok past fun past' r => match r with
      | .ok a => (f a).FollowsFor A Ok past' Q
      | .error e => Q past' (.error e)) : (p.bind f).FollowsFor A Ok past Q := by
  induction p generalizing past with
  | ret a => exact h
  | raise e => exact h
  | call o k ih => exact ⟨h.1, fun x hx => ih x (h.2 x hx)⟩

theorem attempt {ε' : Type} {p : Program E ε α} {Q : List E.Done → Except ε' (Except ε α) → Prop}
    (h : p.FollowsFor A Ok past fun past' r => Q past' (.ok r)) :
    (p.attempt : Program E ε' (Except ε α)).FollowsFor A Ok past Q := by
  induction p generalizing past with
  | ret a => exact h
  | raise e => exact h
  | call o k ih => exact ⟨h.1, fun x hx => ih x (h.2 x hx)⟩

theorem ite {φ : Prop} [Decidable φ] {p q : Program E ε α} {Q : List E.Done → Except ε α → Prop}
    (hp : φ → p.FollowsFor A Ok past Q) (hq : ¬ φ → q.FollowsFor A Ok past Q) :
    (if φ then p else q).FollowsFor A Ok past Q := by
  split
  · exact hp ‹_›
  · exact hq ‹_›

/-- What holds of the result whatever the answers are. -/
theorem and_always {p : Program E ε α} {Q : List E.Done → Except ε α → Prop}
    {R : Except ε α → Prop} (h : p.FollowsFor A Ok past Q) (hR : p.Always R) :
    p.FollowsFor A Ok past fun past' r => Q past' r ∧ R r := by
  induction p generalizing past with
  | ret a => exact ⟨h, hR⟩
  | raise e => exact ⟨h, hR⟩
  | call o k ih => exact ⟨h.1, fun x hx => ih x (h.2 x hx) (hR x)⟩

theorem ofExcept {r : Except ε α} {Q : List E.Done → Except ε α → Prop} (h : Q past r) :
    (Program.ofExcept r).FollowsFor A Ok past Q := by
  cases r with
  | ok a => exact h
  | error e => exact h

end FollowsFor

/-- A program all of whose calls are allowed, from a past with what each of them keeps. -/
theorem Issues.followsFor {P : E.Op → Prop} {K : List E.Done → Prop}
    (hok : ∀ past o, K past → P o → Ok past o)
    (hkeep : ∀ past d, K past → P d.op → A past d → K (past ++ [d])) {p : Program E ε α}
    (hp : p.Issues P) (hpast : K past) : p.FollowsFor A Ok past fun past' _ => K past' := by
  induction p generalizing past with
  | ret a => exact hpast
  | raise e => exact hpast
  | call o k ih =>
    exact ⟨hok past o hpast hp.1, fun x hx => ih x (hp.2 x) (hkeep past ⟨o, x⟩ hpast hp.1 hx)⟩

/-- **A program whose operations are carried out by programs.**  `R` relates what it has done to
what was done for it. -/
theorem FollowsFor.translate {F : Signature} {A' : List F.Done → F.Done → Prop}
    {Ok' : List F.Done → F.Op → Prop} {R : List E.Done → List F.Done → Prop}
    {h : ∀ o : E.Op, Program F ε (E.Ans o)}
    (hh : ∀ past past' o, R past past' → Ok past o →
      (h o).FollowsFor A' Ok' past' fun past'' r =>
        ∃ x, r = .ok x ∧ A past ⟨o, x⟩ ∧ R (past ++ [⟨o, x⟩]) past'')
    {p : Program E ε α} {Q : List E.Done → Except ε α → Prop} (hp : p.FollowsFor A Ok past Q)
    {past' : List F.Done} (hR : R past past') :
    (p.translate h).FollowsFor A' Ok' past' fun past'' r => ∃ past, R past past'' ∧ Q past r := by
  induction p generalizing past past' with
  | ret a => exact ⟨past, hR, hp⟩
  | raise e => exact ⟨past, hR, hp⟩
  | call o k ih =>
    refine FollowsFor.bind ((hh past past' o hR hp.1).mono fun past'' r hr => ?_)
    obtain ⟨x, rfl, hx, hR'⟩ := hr
    exact ih x (hp.2 x hx) hR'

/-! Where neither the answers nor the calls are judged by the past, it can be left out. -/

/-- **Whatever answers it gets that satisfy `A`**, the program calls what `P` allows, and what it
returns satisfies `Q`. -/
def Gives (A : E.Done → Prop) (P : E.Op → Prop) : Program E ε α → (α → Prop) → Prop
  | ret a, Q => Q a
  | raise _, _ => True
  | call o k, Q => P o ∧ ∀ x, A ⟨o, x⟩ → Gives A P (k x) Q

namespace Gives
variable {A : E.Done → Prop} {P : E.Op → Prop} {Q : α → Prop}

theorem mono {p : Program E ε α} {Q' : α → Prop} (h : p.Gives A P Q) (hQ : ∀ a, Q a → Q' a) :
    p.Gives A P Q' := by
  induction p with
  | ret a => exact hQ a h
  | raise e => trivial
  | call o k ih => exact ⟨h.1, fun x hx => ih x (h.2 x hx)⟩

theorem bind {p : Program E ε α} {f : α → Program E ε β} {R : β → Prop} (h : p.Gives A P Q)
    (hf : ∀ a, Q a → (f a).Gives A P R) : (p.bind f).Gives A P R := by
  induction p with
  | ret a => exact hf a h
  | raise e => trivial
  | call o k ih => exact ⟨h.1, fun x hx => ih x (h.2 x hx)⟩

theorem attempt {ε' : Type} {p : Program E ε α} (h : p.Gives A P Q) :
    (p.attempt : Program E ε' (Except ε α)).Gives A P fun r => ∀ a, r = .ok a → Q a := by
  induction p with
  | ret a =>
    rintro _ ⟨⟩
    exact h
  | raise e => exact fun _ h => nomatch h
  | call o k ih => exact ⟨h.1, fun x hx => ih x (h.2 x hx)⟩

theorem tryCatch {p : Program E ε α} {f : ε → Program E ε α} (h : p.Gives A P Q)
    (hf : ∀ e, (f e).Gives A P Q) : (p.tryCatch f).Gives A P Q := by
  induction p with
  | ret a => exact h
  | raise e => exact hf e
  | call o k ih => exact ⟨h.1, fun x hx => ih x (h.2 x hx)⟩

theorem ite {φ : Prop} [Decidable φ] {p q : Program E ε α} (hp : φ → p.Gives A P Q)
    (hq : ¬ φ → q.Gives A P Q) : (if φ then p else q).Gives A P Q := by
  split
  · exact hp ‹_›
  · exact hq ‹_›

theorem ofExcept {r : Except ε α} (h : ∀ a, r = .ok a → Q a) :
    (Program.ofExcept r).Gives A P Q := by
  cases r with
  | ok a => exact h a rfl
  | error e => trivial

/-- Operations carried out by programs, whose results are answers that can be got. -/
theorem translate {F : Signature} {A' : F.Done → Prop} {P' : F.Op → Prop}
    {h : ∀ o : E.Op, Program F ε (E.Ans o)}
    (hh : ∀ o, P o → (h o).Gives A' P' fun x => A ⟨o, x⟩) {p : Program E ε α}
    (hp : p.Gives A P Q) : (p.translate h).Gives A' P' Q := by
  induction p with
  | ret a => exact hp
  | raise e => trivial
  | call o k ih => exact (hh o hp.1).bind fun x hx => ih x (hp.2 x hx)

end Gives

/-- The calls of one run, whose answers all satisfy the assumption. -/
theorem Gives.ops {A : E.Done → Prop} {P : E.Op → Prop} {Q : α → Prop} {p : Program E ε α}
    (h : p.Gives A P Q) {w : ∀ o, E.Ans o} (hw : ∀ o, A ⟨o, w o⟩) : ∀ o ∈ p.ops w, P o := by
  induction p with
  | ret a => exact fun o ho => absurd ho List.not_mem_nil
  | raise e => exact fun o ho => absurd ho List.not_mem_nil
  | call o k ih =>
    intro o' ho'
    rcases List.mem_cons.mp ho' with rfl | ho'
    · exact h.1
    · exact ih (w o) (h.2 (w o) (hw o)) o' ho'

theorem Gives.weaken {A : E.Done → Prop} {P P' : E.Op → Prop} {Q : α → Prop} {p : Program E ε α}
    (h : p.Gives A P Q) (hP : ∀ o, P o → P' o) : p.Gives A P' Q := by
  induction p with
  | ret a => exact h
  | raise e => trivial
  | call o k ih => exact ⟨hP o h.1, fun x hx => ih x (h.2 x hx)⟩

theorem Gives.followsFor {A : E.Done → Prop} {P : E.Op → Prop} {Q : α → Prop}
    {p : Program E ε α} (h : p.Gives A P Q) :
    p.FollowsFor (fun _ d => A d) (fun _ o => P o) past fun _ r => ∀ a, r = .ok a → Q a := by
  induction p generalizing past with
  | ret a =>
    rintro _ ⟨⟩
    exact h
  | raise e => exact fun _ h => nomatch h
  | call o k ih => exact ⟨h.1, fun x hx => ih x (h.2 x hx)⟩

/-- Every program calls operations. -/
theorem issues_any (p : Program E ε α) : p.Issues fun _ => True := by
  induction p with
  | ret a => trivial
  | raise e => trivial
  | call o k ih => exact ⟨trivial, ih⟩

/-- Every answer of the past satisfies the assumption. -/
def Given (A : List E.Done → E.Done → Prop) (past : List E.Done) : Prop :=
  ∀ pre d post, past = pre ++ d :: post → A pre d

theorem Given.nil : Given A [] := by
  intro pre d post h
  simp at h

theorem Given.snoc {d : E.Done} (h : Given A past) (hd : A past d) : Given A (past ++ [d]) := by
  intro pre d' post heq
  rcases List.eq_nil_or_concat post with rfl | ⟨post', last, rfl⟩
  · obtain ⟨rfl, hlast⟩ := List.append_inj' heq rfl
    cases hlast
    exact hd
  · have hsplit : past ++ [d] = (pre ++ d' :: post') ++ [last] := by simpa using heq
    exact h pre d' post' (List.append_inj' hsplit rfl).1

/-- An answer that breaks the assumption breaks it for good. -/
theorem follows_of_not_given {Q : List E.Done → Except ε α → Prop} {p : Program E ε α}
    (h : ¬ Given A past) : p.Follows (fun past o => Given A past → Ok past o) past
      fun past' r => Given A past' → Q past' r := by
  induction p generalizing past with
  | ret a => exact fun hgiven => absurd hgiven h
  | raise e => exact fun hgiven => absurd hgiven h
  | call o k ih =>
    refine ⟨fun hgiven => absurd hgiven h, fun x => ih x fun hgiven => h ?_⟩
    intro pre d post hsplit
    exact hgiven pre d (post ++ [⟨o, x⟩]) (by simp [hsplit])

/-- **The assumption as a condition** on the past. -/
theorem FollowsFor.follows {Q : List E.Done → Except ε α → Prop} {p : Program E ε α}
    (h : p.FollowsFor A Ok past Q) : p.Follows (fun past o => Given A past → Ok past o) past
      fun past' r => Given A past' → Q past' r := by
  induction p generalizing past with
  | ret a => exact fun _ => h
  | raise e => exact fun _ => h
  | call o k ih =>
    refine ⟨fun _ => h.1, fun x => ?_⟩
    by_cases hx : A past ⟨o, x⟩
    · exact ih x (h.2 x hx)
    · exact follows_of_not_given fun hgiven => hx (hgiven past ⟨o, x⟩ [] rfl)

end Program

variable {E : Signature} {ε σ : Type} {sys : System E ε σ}

/-- What the events of a history say of their threads' pasts. -/
theorem System.Each.given {A : List E.Done → E.Done → Prop} {tr : List sys.Event}
    (h : System.Each (fun pre ev => A (System.own ev.thread pre) ⟨ev.op, ev.answer⟩) tr) (t : Nat) :
    Program.Given A (System.own t tr) := by
  induction tr using List.reverseRec with
  | nil => exact .nil
  | append_singleton tr ev ih =>
    have hbefore : System.Each
        (fun pre ev => A (System.own ev.thread pre) ⟨ev.op, ev.answer⟩) tr := by
      intro pre ev' post hsplit
      exact h pre ev' (post ++ [ev]) (by simp [hsplit])
    by_cases ht : ev.thread = t
    · subst ht
      rw [System.own_snoc]
      exact (ih hbefore).snoc (h tr ev [] rfl)
    · rw [System.own_other tr ht]
      exact ih hbefore

/-- **Each event of a recorded run is one that its thread's own past allows**, when the answers
of the run are as the programs assume. -/
theorem System.recorded_followsFor {A : List E.Done → E.Done → Prop}
    {Ok : List E.Done → E.Op → Prop} {cond : sys.recorded.Cond}
    (hentry : ∀ p, sys.Entry p → p.FollowsFor A Ok [] fun _ _ => True) {s : σ}
    {d : Config E ε (σ × List sys.Event)}
    (hr : sys.recorded.Reaches cond (Config.idle (s, [])) d)
    (hA : System.Each (fun pre ev => A (System.own ev.thread pre) ⟨ev.op, ev.answer⟩) d.shared.2) :
    System.Each (fun pre ev => Ok (System.own ev.thread pre) ev.op) d.shared.2 := by
  have hfollows := System.recorded_follows
    (fun p hp => (hentry p hp).follows.mono fun _ _ _ => trivial) hr
  intro pre ev post hsplit
  refine hfollows pre ev post hsplit (System.Each.given (fun pre' ev' post' hsplit' => ?_) _)
  exact hA pre' ev' (post' ++ ev :: post) (by simp [hsplit, hsplit'])

end Interleaving
