import L1Agent.Library.Past

/-! # Two worlds

A world answers each operation of a program in the light of what was done before
(`Signature.World`); `Program.doneIn` and `Program.endIn` say what a program does in a world and
how it ends.

An observer looks at what was done through `look`, which may drop an operation or blank a part
of it.  Two programs, each in its own world, are `Alike` when from pasts that look the same they
do what looks the same and end in related results.  The first is `Covered` by the second when it
may also part from it, but then does nothing of a certain kind.

Both relations go through the constructions of programs (`Alike.bind`, `Covered.bind`,
`Covered.tryCatch`), so that two programs of one shape are compared piece by piece; where only one
of them does something that is not looked at, `Alike.unseen` is the step.
-/
namespace Interleaving

/-- An answer to each operation, after what was done before. -/
abbrev Signature.World (E : Signature) := List E.Done → ∀ o, E.Ans o

namespace Program
variable {E : Signature} {ε α β : Type}

/-- What the program does in the world, after `past`. -/
def doneIn (w : E.World) : Program E ε α → List E.Done → List E.Done
  | ret _, _ => []
  | raise _, _ => []
  | call o k, past => ⟨o, w past o⟩ :: doneIn w (k (w past o)) (past ++ [⟨o, w past o⟩])

/-- How the program ends in the world, after `past`. -/
def endIn (w : E.World) : Program E ε α → List E.Done → Except ε α
  | ret a, _ => .ok a
  | raise e, _ => .error e
  | call o k, past => endIn w (k (w past o)) (past ++ [⟨o, w past o⟩])

variable {w : E.World}

theorem endIn_bind (p : Program E ε α) (f : α → Program E ε β) (past : List E.Done) :
    (p.bind f).endIn w past = match p.endIn w past with
      | .ok a => (f a).endIn w (past ++ p.doneIn w past)
      | .error e => .error e := by
  induction p generalizing past with
  | ret a => simp only [bind_ret, endIn, doneIn, List.append_nil]
  | raise e => rfl
  | call o k ih =>
    have h := ih (w past o) (past ++ [⟨o, w past o⟩])
    simp only [List.append_assoc, List.singleton_append] at h
    exact h

theorem doneIn_bind (p : Program E ε α) (f : α → Program E ε β) (past : List E.Done) :
    (p.bind f).doneIn w past = p.doneIn w past ++ match p.endIn w past with
      | .ok a => (f a).doneIn w (past ++ p.doneIn w past)
      | .error _ => [] := by
  induction p generalizing past with
  | ret a => simp only [bind_ret, endIn, doneIn, List.append_nil, List.nil_append]
  | raise e => rfl
  | call o k ih =>
    have h := ih (w past o) (past ++ [⟨o, w past o⟩])
    simp only [List.append_assoc, List.singleton_append] at h
    exact congrArg (⟨o, w past o⟩ :: ·) h

theorem endIn_tryCatch (p : Program E ε α) (f : ε → Program E ε α) (past : List E.Done) :
    (p.tryCatch f).endIn w past = match p.endIn w past with
      | .ok a => .ok a
      | .error e => (f e).endIn w (past ++ p.doneIn w past) := by
  induction p generalizing past with
  | ret a => rfl
  | raise e => simp only [tryCatch_raise, endIn, doneIn, List.append_nil]
  | call o k ih =>
    have h := ih (w past o) (past ++ [⟨o, w past o⟩])
    simp only [List.append_assoc, List.singleton_append] at h
    exact h

theorem doneIn_tryCatch (p : Program E ε α) (f : ε → Program E ε α) (past : List E.Done) :
    (p.tryCatch f).doneIn w past = p.doneIn w past ++ match p.endIn w past with
      | .ok _ => []
      | .error e => (f e).doneIn w (past ++ p.doneIn w past) := by
  induction p generalizing past with
  | ret a => rfl
  | raise e => simp only [tryCatch_raise, endIn, doneIn, List.append_nil, List.nil_append]
  | call o k ih =>
    have h := ih (w past o) (past ++ [⟨o, w past o⟩])
    simp only [List.append_assoc, List.singleton_append] at h
    exact congrArg (⟨o, w past o⟩ :: ·) h

theorem Issues.doneIn {P : E.Op → Prop} {p : Program E ε α} (h : p.Issues P)
    (past : List E.Done) : ∀ d ∈ p.doneIn w past, P d.op := by
  induction p generalizing past with
  | ret a => exact fun d hd => absurd hd List.not_mem_nil
  | raise e => exact fun d hd => absurd hd List.not_mem_nil
  | call o k ih =>
    intro d hd
    rcases List.mem_cons.mp hd with rfl | hd
    · exact h.1
    · exact ih (w past o) (h.2 (w past o)) _ d hd

theorem Always.endIn {p : Program E ε α} {Q : Except ε α → Prop} (h : p.Always Q)
    (past : List E.Done) : Q (p.endIn w past) := by
  induction p generalizing past with
  | ret a => exact h
  | raise e => exact h
  | call o k ih => exact ih (w past o) (h (w past o)) _

end Program

/-! ## What an observer sees of both -/

/-- Two worlds, and what an observer sees of what is done in them. -/
structure Worlds (E : Signature) (V : Type) where
  look : E.Done → Option V
  left : E.World
  right : E.World

namespace Worlds
variable {E : Signature} {V ε α β γ δ : Type} (b : Worlds E V)

/-- The observer cannot tell the two pasts apart. -/
def Same (past past' : List E.Done) : Prop := past.filterMap b.look = past'.filterMap b.look

/-- After pasts that look the same the operation has the same answer. -/
def Heard (o : E.Op) : Prop := ∀ past past', b.Same past past' → b.left past o = b.right past' o

/-- Results that are related, or one exception. -/
def Ends (R : α → β → Prop) : Except ε α → Except ε β → Prop
  | .ok a, .ok a' => R a a'
  | .error e, .error e' => e = e'
  | _, _ => False

/-- **The two programs look the same**, each in its own world. -/
def Alike (R : α → β → Prop) (p : Program E ε α) (q : Program E ε β) : Prop :=
  ∀ past past', b.Same past past' →
    b.Same (p.doneIn b.left past) (q.doneIn b.right past') ∧
      Ends R (p.endIn b.left past) (q.endIn b.right past')

/-- **The first program looks like the second, or does nothing that is `Acting`.** -/
def Covered (Acting : E.Op → Prop) (p q : Program E ε α) : Prop :=
  ∀ past past', b.Same past past' →
    (b.Same (p.doneIn b.left past) (q.doneIn b.right past') ∧
      Ends Eq (p.endIn b.left past) (q.endIn b.right past')) ∨
    ∀ d ∈ p.doneIn b.left past, ¬ Acting d.op

variable {b}

theorem Same.append {xs ys xs' ys' : List E.Done} (h : b.Same xs xs') (h' : b.Same ys ys') :
    b.Same (xs ++ ys) (xs' ++ ys') := by
  unfold Same at h h' ⊢
  rw [List.filterMap_append, List.filterMap_append, h, h']

theorem Alike.ret {R : α → β → Prop} {a : α} {a' : β} (h : R a a') :
    b.Alike (ε := ε) R (.ret a) (.ret a') := fun _ _ _ => ⟨rfl, h⟩

theorem Alike.raise {R : α → β → Prop} (e : ε) : b.Alike R (.raise e) (.raise e) :=
  fun _ _ _ => ⟨rfl, rfl⟩

/-- A program whose questions all have the same answers looks like itself. -/
theorem Alike.refl {p : Program E ε α} (h : p.Issues b.Heard) : b.Alike Eq p p := by
  induction p with
  | ret a => exact .ret rfl
  | raise e => exact .raise e
  | call o k ih =>
    intro past past' hpast
    have hx : b.left past o = b.right past' o := h.1 past past' hpast
    have hnext : b.Same (past ++ [⟨o, b.left past o⟩]) (past' ++ [⟨o, b.right past' o⟩]) := by
      rw [hx]
      exact hpast.append rfl
    obtain ⟨hdone, hend⟩ := ih (b.left past o) (h.2 _) _ _ hnext
    rw [hx] at hdone hend
    have hfirst : b.Same [⟨o, b.right past' o⟩] [⟨o, b.right past' o⟩] := rfl
    simp only [Program.doneIn, Program.endIn]
    rw [hx]
    exact ⟨hfirst.append hdone, hend⟩

/-- Two operations that look the same, each with its own continuation. -/
theorem Alike.call {R : α → β → Prop} {o o' : E.Op} {k : E.Ans o → Program E ε α}
    {k' : E.Ans o' → Program E ε β}
    (hlook : ∀ past past', b.Same past past' →
      b.look ⟨o, b.left past o⟩ = b.look ⟨o', b.right past' o'⟩)
    (hk : ∀ past past', b.Same past past' →
      b.Alike R (k (b.left past o)) (k' (b.right past' o'))) :
    b.Alike R (.call o k) (.call o' k') := by
  intro past past' hpast
  have hfirst : b.Same [⟨o, b.left past o⟩] [⟨o', b.right past' o'⟩] := by
    unfold Same
    rw [List.filterMap_cons, List.filterMap_cons, hlook past past' hpast]
  obtain ⟨hdone, hend⟩ := hk past past' hpast _ _ (hpast.append hfirst)
  exact ⟨hfirst.append hdone, hend⟩

/-- An operation that the observer does not see. -/
theorem Alike.unseen {R : α → β → Prop} {o : E.Op} {k : E.Ans o → Program E ε α}
    {q : Program E ε β} (hlook : ∀ past, b.look ⟨o, b.left past o⟩ = none)
    (hk : ∀ past, b.Alike R (k (b.left past o)) q) : b.Alike R (.call o k) q := by
  intro past past' hpast
  have hfirst : b.Same [⟨o, b.left past o⟩] [] := by
    unfold Same
    rw [List.filterMap_cons, hlook past]
  have hnext : b.Same (past ++ [⟨o, b.left past o⟩]) (past' ++ []) := hpast.append hfirst
  rw [List.append_nil] at hnext
  obtain ⟨hdone, hend⟩ := hk past _ _ hnext
  exact ⟨hfirst.append hdone, hend⟩

theorem Alike.bind {R : α → β → Prop} {S : γ → δ → Prop} {p : Program E ε α}
    {q : Program E ε β} {f : α → Program E ε γ} {g : β → Program E ε δ} (h : b.Alike R p q)
    (hf : ∀ x y, R x y → b.Alike S (f x) (g y)) : b.Alike S (p.bind f) (q.bind g) := by
  intro past past' hpast
  obtain ⟨hdone, hend⟩ := h past past' hpast
  have hnext := hpast.append hdone
  rw [Program.doneIn_bind, Program.doneIn_bind, Program.endIn_bind, Program.endIn_bind]
  cases hp : p.endIn b.left past with
  | ok x =>
    cases hq : q.endIn b.right past' with
    | ok y =>
      rw [hp, hq] at hend
      obtain ⟨hdone', hend'⟩ := hf x y hend _ _ hnext
      exact ⟨hdone.append hdone', hend'⟩
    | error e' =>
      rw [hp, hq] at hend
      exact hend.elim
  | error e =>
    cases hq : q.endIn b.right past' with
    | ok y =>
      rw [hp, hq] at hend
      exact hend.elim
    | error e' =>
      rw [hp, hq] at hend
      exact ⟨hdone.append rfl, hend⟩

variable {Acting : E.Op → Prop}

theorem Covered.of_alike {p q : Program E ε α} (h : b.Alike Eq p q) : b.Covered Acting p q :=
  fun past past' hpast => .inl (h past past' hpast)

theorem Covered.of_issues {p q : Program E ε α} (h : p.Issues fun o => ¬ Acting o) :
    b.Covered Acting p q := fun past _ _ => .inr (h.doneIn past)

/-- A first part that looks the same and does not act, and then whatever is covered. -/
theorem Covered.bind {R : α → β → Prop} {p : Program E ε α} {q : Program E ε β}
    {f : α → Program E ε γ} {g : β → Program E ε γ} (h : b.Alike R p q)
    (hp : p.Issues fun o => ¬ Acting o) (hf : ∀ x y, R x y → b.Covered Acting (f x) (g y)) :
    b.Covered Acting (p.bind f) (q.bind g) := by
  intro past past' hpast
  obtain ⟨hdone, hend⟩ := h past past' hpast
  have hfirst := hp.doneIn (w := b.left) past
  have hnext := hpast.append hdone
  rw [Program.doneIn_bind, Program.doneIn_bind, Program.endIn_bind, Program.endIn_bind]
  cases hpe : p.endIn b.left past with
  | ok x =>
    cases hqe : q.endIn b.right past' with
    | ok y =>
      rw [hpe, hqe] at hend
      rcases hf x y hend _ _ hnext with ⟨hdone', hend'⟩ | hquiet
      · exact .inl ⟨hdone.append hdone', hend'⟩
      · refine .inr fun d hd => ?_
        rcases List.mem_append.mp hd with hd | hd
        · exact hfirst d hd
        · exact hquiet d hd
    | error e' =>
      rw [hpe, hqe] at hend
      exact hend.elim
  | error e =>
    refine .inr fun d hd => ?_
    rw [List.append_nil] at hd
    exact hfirst d hd

/-- An exception handler that does not act covers itself. -/
theorem Covered.tryCatch {p q : Program E ε α} {f : ε → Program E ε α}
    (h : b.Covered Acting p q) (hheard : ∀ e, (f e).Issues b.Heard)
    (hf : ∀ e, (f e).Issues fun o => ¬ Acting o) :
    b.Covered Acting (p.tryCatch f) (q.tryCatch f) := by
  intro past past' hpast
  rw [Program.doneIn_tryCatch, Program.doneIn_tryCatch, Program.endIn_tryCatch,
    Program.endIn_tryCatch]
  rcases h past past' hpast with ⟨hdone, hend⟩ | hquiet
  · refine .inl ?_
    cases hp : p.endIn b.left past with
    | ok x =>
      cases hq : q.endIn b.right past' with
      | ok y =>
        rw [hp, hq] at hend
        exact ⟨hdone.append rfl, hend⟩
      | error e' =>
        rw [hp, hq] at hend
        exact hend.elim
    | error e =>
      cases hq : q.endIn b.right past' with
      | ok y =>
        rw [hp, hq] at hend
        exact hend.elim
      | error e' =>
        rw [hp, hq] at hend
        obtain rfl : e = e' := hend
        obtain ⟨hdone', hend'⟩ := Alike.refl (hheard e) _ _ (hpast.append hdone)
        exact ⟨hdone.append hdone', hend'⟩
  · refine .inr fun d hd => ?_
    rcases List.mem_append.mp hd with hd | hd
    · exact hquiet d hd
    · cases hp : p.endIn b.left past with
      | ok x =>
        rw [hp] at hd
        exact absurd hd List.not_mem_nil
      | error e =>
        rw [hp] at hd
        exact (hf e).doneIn _ d hd

end Worlds
end Interleaving
