import Mathlib.Logic.Function.Basic

/-! # Programs over atomic operations

A `Program` is what a coroutine does, cut at the points where it gives up
control: each `call` is one operation that the outside world carries out as a
whole (one database transaction, one remote call), and the program goes on with
its answer.  An exception is a result like any other, so a handler is a function
on programs.  A program is a well-founded tree: it always ends, whatever the
answers are, which is what a loop bounded in advance gives.

`Program.Always` and `Program.Issues` say what holds of every end and of every call, whatever the
answers are.  Properties of programs that go through sequence, handlers and branches in one way
are `Compositional`, so that what is proved along a program once serves each of them.  `translate`
carries the operations of a program out by programs over other operations.
-/
namespace Interleaving

/-- The operations a program may call, with the type of each one's answer. -/
structure Signature where
  Op : Type
  Ans : Op → Type

/-- A program that ends with a value in `α` or an exception in `ε`. -/
inductive Program (E : Signature) (ε α : Type) : Type where
  | ret (value : α)
  | raise (exn : ε)
  | call (op : E.Op) (next : E.Ans op → Program E ε α)

namespace Program
variable {E : Signature} {ε α β γ : Type}

/-- Sequencing: an exception ends the whole program. -/
def bind : Program E ε α → (α → Program E ε β) → Program E ε β
  | ret a, f => f a
  | raise e, _ => raise e
  | call op k, f => call op fun x => bind (k x) f

/-- `try p except e: f e`. -/
def tryCatch : Program E ε α → (ε → Program E ε α) → Program E ε α
  | ret a, _ => ret a
  | raise e, f => f e
  | call op k, f => call op fun x => tryCatch (k x) f

instance : Monad (Program E ε) where
  pure := ret
  bind := bind

instance : MonadExceptOf ε (Program E ε) where
  throw := raise
  tryCatch := tryCatch

/-- One operation, with its answer as the result. -/
def op (o : E.Op) : Program E ε (E.Ans o) := call o ret

/-- The same program with its exceptions turned into others. -/
def mapExn {ε' : Type} (f : ε → ε') : Program E ε α → Program E ε' α
  | ret a => ret a
  | raise e => raise (f e)
  | call o k => call o fun x => mapExn f (k x)

/-- The program's end as a value: nothing is raised. -/
def attempt {ε' : Type} : Program E ε α → Program E ε' (Except ε α)
  | ret a => ret (.ok a)
  | raise e => ret (.error e)
  | call o k => call o fun x => attempt (k x)

/-- A result that is already there, which may be an exception. -/
def ofExcept : Except ε α → Program E ε α
  | .ok a => ret a
  | .error e => raise e

/-- Each operation replaced by a program over another signature. -/
def translate {F : Signature} (h : ∀ o : E.Op, Program F ε (E.Ans o)) :
    Program E ε α → Program F ε α
  | ret a => ret a
  | raise e => raise e
  | call o k => bind (h o) fun x => translate h (k x)

/-- **Whatever the answers are**, the program ends in a result that satisfies `Q`. -/
def Always : Program E ε α → (Except ε α → Prop) → Prop
  | ret a, Q => Q (.ok a)
  | raise e, Q => Q (.error e)
  | call _ k, Q => ∀ x, Always (k x) Q

@[simp] theorem pure_eq (a : α) : (pure a : Program E ε α) = ret a := rfl
@[simp] theorem throw_eq (e : ε) : (throw e : Program E ε α) = raise e := rfl
@[simp] theorem bind_eq (p : Program E ε α) (f : α → Program E ε β) :
    p >>= f = bind p f := rfl
@[simp] theorem bind_ret (a : α) (f : α → Program E ε β) : bind (ret a) f = f a := rfl
@[simp] theorem bind_raise (e : ε) (f : α → Program E ε β) :
    bind (raise e) f = raise e := rfl
@[simp] theorem bind_call (o : E.Op) (k : E.Ans o → Program E ε α) (f : α → Program E ε β) :
    bind (call o k) f = call o fun x => bind (k x) f := rfl
@[simp] theorem tryCatch_ret (a : α) (f : ε → Program E ε α) : tryCatch (ret a) f = ret a := rfl
@[simp] theorem tryCatch_raise (e : ε) (f : ε → Program E ε α) :
    tryCatch (raise e) f = f e := rfl

theorem Always.mono {p : Program E ε α} {Q Q' : Except ε α → Prop} (h : p.Always Q)
    (hQ : ∀ r, Q r → Q' r) : p.Always Q' := by
  induction p with
  | ret a => exact hQ _ h
  | raise e => exact hQ _ h
  | call o k ih => exact fun x => ih x (h x)

theorem Always.bind {p : Program E ε α} {f : α → Program E ε β} {Q : Except ε β → Prop}
    (h : p.Always fun r => match r with
      | .ok a => (f a).Always Q
      | .error e => Q (.error e)) : (p.bind f).Always Q := by
  induction p with
  | ret a => exact h
  | raise e => exact h
  | call o k ih => exact fun x => ih x (h x)

/-- What a program returns is what its last part returns. -/
theorem Always.bind_result {p : Program E ε α} {f : α → Program E ε β} {Q : β → Prop}
    (h : ∀ a, (f a).Always fun r => ∀ b, r = .ok b → Q b) :
    (p.bind f).Always fun r => ∀ b, r = .ok b → Q b := by
  induction p with
  | ret a => exact h a
  | raise e => exact fun b hb => nomatch hb
  | call o k ih => exact fun x => ih x

theorem Always.ite {φ : Prop} [Decidable φ] {p q : Program E ε α} {Q : Except ε α → Prop}
    (hp : φ → p.Always Q) (hq : ¬φ → q.Always Q) : (if φ then p else q).Always Q := by
  by_cases h : φ
  · rw [if_pos h]
    exact hp h
  · rw [if_neg h]
    exact hq h

theorem Always.tryCatch {p : Program E ε α} {f : ε → Program E ε α} {Q : Except ε α → Prop}
    (h : p.Always fun r => match r with
      | .ok a => Q (.ok a)
      | .error e => (f e).Always Q) : (p.tryCatch f).Always Q := by
  induction p with
  | ret a => exact h
  | raise e => exact h
  | call o k ih => exact fun x => ih x (h x)

theorem Always.mapExn {ε' : Type} {p : Program E ε α} {f : ε → ε'} {Q : Except ε' α → Prop}
    (h : p.Always fun r => match r with
      | .ok a => Q (.ok a)
      | .error e => Q (.error (f e))) : (p.mapExn f).Always Q := by
  induction p with
  | ret a => exact h
  | raise e => exact h
  | call o k ih => exact fun x => ih x (h x)

theorem Always.attempt {ε' : Type} {p : Program E ε α} {Q : Except ε' (Except ε α) → Prop}
    (h : p.Always fun r => Q (.ok r)) : (p.attempt : Program E ε' _).Always Q := by
  induction p with
  | ret a => exact h
  | raise e => exact h
  | call o k ih => exact fun x => ih x (h x)

theorem Always.trivial {p : Program E ε α} {Q : Except ε α → Prop} (h : ∀ r, Q r) :
    p.Always Q := by
  induction p with
  | ret a => exact h _
  | raise e => exact h _
  | call o k ih => exact fun x => ih x

/-! ## Every call satisfies a property -/

/-- **Whatever the answers are**, each operation the program calls satisfies `P`. -/
def Issues (P : E.Op → Prop) : Program E ε α → Prop
  | ret _ => True
  | raise _ => True
  | call o k => P o ∧ ∀ x, Issues P (k x)

theorem Issues.bind {P : E.Op → Prop} {p : Program E ε α} {f : α → Program E ε β}
    (hp : p.Issues P) (hf : ∀ a, (f a).Issues P) : (p.bind f).Issues P := by
  induction p with
  | ret a => exact hf a
  | raise e => exact True.intro
  | call o k ih => exact ⟨hp.1, fun x => ih x (hp.2 x)⟩

theorem Issues.tryCatch {P : E.Op → Prop} {p : Program E ε α} {f : ε → Program E ε α}
    (hp : p.Issues P) (hf : ∀ e, (f e).Issues P) : (p.tryCatch f).Issues P := by
  induction p with
  | ret a => exact True.intro
  | raise e => exact hf e
  | call o k ih => exact ⟨hp.1, fun x => ih x (hp.2 x)⟩

theorem Issues.ite {P : E.Op → Prop} {φ : Prop} [Decidable φ] {p q : Program E ε α}
    (hp : φ → p.Issues P) (hq : ¬ φ → q.Issues P) : (if φ then p else q).Issues P := by
  split
  · exact hp ‹_›
  · exact hq ‹_›

theorem issues_ofExcept {P : E.Op → Prop} (r : Except ε α) :
    (ofExcept r : Program E ε α).Issues P := by
  cases r <;> exact True.intro

theorem Issues.mono {P Q : E.Op → Prop} (h : ∀ o, P o → Q o) {p : Program E ε α}
    (hp : p.Issues P) : p.Issues Q := by
  induction p with
  | ret a => exact True.intro
  | raise e => exact True.intro
  | call o k ih => exact ⟨h o hp.1, fun x => ih x (hp.2 x)⟩

theorem Issues.and {P Q : E.Op → Prop} {p : Program E ε α} (hp : p.Issues P) (hq : p.Issues Q) :
    p.Issues fun o => P o ∧ Q o := by
  induction p with
  | ret a => exact True.intro
  | raise e => exact True.intro
  | call o k ih => exact ⟨⟨hp.1, hq.1⟩, fun x => ih x (hp.2 x) (hq.2 x)⟩

theorem Issues.attempt {ε' : Type} {P : E.Op → Prop} {p : Program E ε α} (hp : p.Issues P) :
    (p.attempt : Program E ε' (Except ε α)).Issues P := by
  induction p with
  | ret a => exact True.intro
  | raise e => exact True.intro
  | call o k ih => exact ⟨hp.1, fun x => ih x (hp.2 x)⟩

theorem Issues.mapExn {ε' : Type} {P : E.Op → Prop} {p : Program E ε α} (f : ε → ε')
    (hp : p.Issues P) : (p.mapExn f).Issues P := by
  induction p with
  | ret a => exact True.intro
  | raise e => exact True.intro
  | call o k ih => exact ⟨hp.1, fun x => ih x (hp.2 x)⟩

/-- Operations of a kind, carried out by programs that call a kind of operations. -/
theorem Issues.translate {F : Signature} {P : F.Op → Prop} {Q : E.Op → Prop}
    {h : ∀ o : F.Op, Program E ε (F.Ans o)} {p : Program F ε α} (hp : p.Issues P)
    (hh : ∀ o, P o → (h o).Issues Q) : (p.translate h).Issues Q := by
  induction p with
  | ret a => exact True.intro
  | raise e => exact True.intro
  | call o k ih => exact (hh o hp.1).bind fun x => ih x (hp.2 x)

/-! What a handler or a later part calls may be known to satisfy `P`; then `Issues` is about the
rest. -/

/-- A property of programs that a program has when its parts have it. -/
structure Compositional (C : ∀ {α : Type}, Program E ε α → Prop) : Prop where
  ret : ∀ {α : Type} (a : α), C (ret a)
  raise : ∀ {α : Type} (e : ε), C (raise e : Program E ε α)
  bind : ∀ {α β : Type} {p : Program E ε α} {f : α → Program E ε β},
    C p → (∀ a, C (f a)) → C (p.bind f)
  attempt : ∀ {α : Type} {p : Program E ε α}, C p → C (p.attempt : Program E ε (Except ε α))
  tryCatch : ∀ {α : Type} {p : Program E ε α} {f : ε → Program E ε α},
    C p → (∀ e, C (f e)) → C (p.tryCatch f)

theorem issues_compositional (P : E.Op → Prop) :
    Compositional (ε := ε) fun {_} (p : Program E ε _) => p.Issues P where
  ret _ := True.intro
  raise _ := True.intro
  bind := Issues.bind
  attempt := Issues.attempt
  tryCatch := Issues.tryCatch

namespace Compositional
variable {C : ∀ {α : Type}, Program E ε α → Prop} (hC : Compositional C)
include hC

theorem ofExcept (r : Except ε α) : C (Program.ofExcept r) := by
  cases r with
  | ok a => exact hC.ret a
  | error e => exact hC.raise e

omit hC in
theorem ite {φ : Prop} [Decidable φ] {p q : Program E ε α} (hp : φ → C p) (hq : ¬ φ → C q) :
    C (if φ then p else q) := by
  split
  · exact hp ‹_›
  · exact hq ‹_›

/-- Only the results that the first program can have matter for the second; `e` is any
exception. -/
theorem bind_of_always {α β : Type} {p : Program E ε α} {f : α → Program E ε β}
    {Q : α → Prop} (e : ε) (hp : C p) (hQ : p.Always fun r => ∀ a, r = .ok a → Q a)
    (hf : ∀ a, Q a → C (f a)) : C (p.bind f) := by
  classical
  have heq : p.bind f = p.bind fun a => if Q a then f a else Program.raise e := by
    clear hp
    induction p with
    | ret a => exact (if_pos (hQ a rfl)).symm
    | raise _ => rfl
    | call o k ih => exact congrArg (call o) (funext fun x => ih x (hQ x))
  rw [heq]
  exact hC.bind hp fun a => ite (hf a) fun _ => hC.raise e

/-- Operations carried out by programs with the property. -/
theorem translate {F : Signature} {h : ∀ o : F.Op, Program E ε (F.Ans o)} (hh : ∀ o, C (h o))
    (p : Program F ε α) : C (p.translate h) := by
  induction p with
  | ret a => exact hC.ret a
  | raise e => exact hC.raise e
  | call o k ih => exact hC.bind (hh o) ih

end Compositional

/-! ## A world with fixed answers -/

/-- What the program ends with when each operation has one answer. -/
def eval (w : ∀ o, E.Ans o) : Program E ε α → Except ε α
  | ret a => .ok a
  | raise e => .error e
  | call o k => eval w (k (w o))

/-- The operations it carries out on the way. -/
def ops (w : ∀ o, E.Ans o) : Program E ε α → List E.Op
  | ret _ => []
  | raise _ => []
  | call o k => o :: ops w (k (w o))

variable {w : ∀ o, E.Ans o}

theorem eval_bind (p : Program E ε α) (f : α → Program E ε β) :
    (p.bind f).eval w = match p.eval w with
      | .ok a => (f a).eval w
      | .error e => .error e := by
  induction p with
  | ret a => rfl
  | raise e => rfl
  | call o k ih => exact ih (w o)

theorem ops_bind (p : Program E ε α) (f : α → Program E ε β) :
    (p.bind f).ops w = p.ops w ++ match p.eval w with
      | .ok a => (f a).ops w
      | .error _ => [] := by
  induction p with
  | ret a => rfl
  | raise e => rfl
  | call o k ih => exact congrArg (o :: ·) (ih (w o))

/-- A result that is put in the place of another takes no operation. -/
theorem ops_bind_ret (p : Program E ε α) (f : α → β) :
    (p.bind fun a => ret (f a)).ops w = p.ops w := by
  induction p with
  | ret a => rfl
  | raise e => rfl
  | call o k ih => exact congrArg (o :: ·) (ih (w o))

theorem eval_mapExn {ε' : Type} (f : ε → ε') (p : Program E ε α) :
    (p.mapExn f).eval w = (p.eval w).mapError f := by
  induction p with
  | ret a => rfl
  | raise e => rfl
  | call o k ih => exact ih (w o)

theorem ops_mapExn {ε' : Type} (f : ε → ε') (p : Program E ε α) :
    (p.mapExn f).ops w = p.ops w := by
  induction p with
  | ret a => rfl
  | raise e => rfl
  | call o k ih => exact congrArg (o :: ·) (ih (w o))

theorem eval_attempt {ε' : Type} (p : Program E ε α) :
    (p.attempt : Program E ε' _).eval w = .ok (p.eval w) := by
  induction p with
  | ret a => rfl
  | raise e => rfl
  | call o k ih => exact ih (w o)

theorem ops_attempt {ε' : Type} (p : Program E ε α) :
    (p.attempt : Program E ε' _).ops w = p.ops w := by
  induction p with
  | ret a => rfl
  | raise e => rfl
  | call o k ih => exact congrArg (o :: ·) (ih (w o))

theorem ops_tryCatch_ret (p : Program E ε α) (f : ε → α) :
    (p.tryCatch fun e => ret (f e)).ops w = p.ops w := by
  induction p with
  | ret a => rfl
  | raise e => rfl
  | call o k ih => exact congrArg (o :: ·) (ih (w o))

@[simp] theorem eval_ofExcept (r : Except ε α) : (ofExcept r : Program E ε α).eval w = r := by
  cases r <;> rfl

@[simp] theorem ops_ofExcept (r : Except ε α) : (ofExcept r : Program E ε α).ops w = [] := by
  cases r <;> rfl

theorem ops_ofExcept_bind (r : Except ε α) (f : α → Program E ε β) :
    ((ofExcept r : Program E ε α).bind f).ops w = match r with
      | .ok a => (f a).ops w
      | .error _ => [] := by
  cases r <;> rfl

theorem Always.eval {p : Program E ε α} {Q : Except ε α → Prop} (h : p.Always Q) :
    Q (p.eval w) := by
  induction p with
  | ret a => exact h
  | raise e => exact h
  | call o k ih => exact ih (w o) (h (w o))

theorem Issues.ops {P : E.Op → Prop} {p : Program E ε α} (h : p.Issues P) :
    ∀ o ∈ p.ops w, P o := by
  induction p with
  | ret a => exact fun o ho => absurd ho List.not_mem_nil
  | raise e => exact fun o ho => absurd ho List.not_mem_nil
  | call o k ih =>
    intro o' ho'
    rcases List.mem_cons.mp ho' with rfl | ho'
    · exact h.1
    · exact ih (w o) (h.2 (w o)) o' ho'

end Program
end Interleaving
