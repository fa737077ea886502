import L1Agent.Library.Interleaving

/-! # Runs with their history

`System.recorded` is a system together with the list of the operations that have been carried
out, each with the state before and after it, oldest first.  No program reads the list.  A
statement about what happens between two operations of a run is a statement about it, and an
invariant may mention it.

`System.recorded_keep` is the rule for invariants that mention the history: what every operation
keeps that the programs issue, every recorded run keeps.  `System.recorded_rel` relates the ends of
a recorded run.
-/
namespace Interleaving

variable {E : Signature} {ε σ : Type}

/-- An operation that a thread has carried out. -/
structure System.Event (sys : System E ε σ) where
  thread : Nat
  op : E.Op
  choice : sys.Choice
  before : σ
  answer : E.Ans op
  after : σ

/-- The system that keeps the history of its run. -/
def System.recorded (sys : System E ε σ) : System E ε (σ × List sys.Event) where
  Choice := sys.Choice
  run t o ch s := (sys.run t o ch s.1).map fun r =>
    (r.1, (r.2, s.2 ++ [⟨t, o, ch, s.1, r.1, r.2⟩]))
  Entry := sys.Entry

variable {sys : System E ε σ}

/-- An operation of the recorded system is one of the system, put at the end of the history. -/
theorem System.recorded_run {t : Nat} {o : E.Op} {ch : sys.Choice} {s s' : σ}
    {tr tr' : List sys.Event} {a : E.Ans o}
    (h : sys.recorded.run t o ch (s, tr) = some (a, (s', tr'))) :
    sys.run t o ch s = some (a, s') ∧ tr' = tr ++ [⟨t, o, ch, s, a, s'⟩] := by
  obtain ⟨r, hr, heq⟩ := Option.map_eq_some_iff.mp h
  cases heq
  exact ⟨hr, rfl⟩

/-- A relation between the ends of a recorded run. -/
theorem System.recorded_rel {cond : sys.recorded.Cond} {R : σ → σ → Prop} (hrefl : ∀ s, R s s)
    (htrans : ∀ a b c, R a b → R b c → R a c)
    (h : ∀ ev : sys.Event,
      sys.run ev.thread ev.op ev.choice ev.before = some (ev.answer, ev.after) → R ev.before ev.after)
    {c d : Config E ε (σ × List sys.Event)} (hr : sys.recorded.Reaches cond c d) :
    R c.shared.1 d.shared.1 := by
  refine System.reaches_rel sys.recorded (R := fun s s' => R s.1 s'.1) (fun s => hrefl s.1)
    (fun a b c => htrans a.1 b.1 c.1) ?_ hr
  rintro t o ch ⟨s, tr⟩ a ⟨s', tr'⟩ - hrun
  exact h ⟨t, o, ch, s, a, s'⟩ (recorded_run hrun).1

/-- **An invariant of the state and the history**: what every operation keeps that the
programs issue, every recorded run keeps. -/
theorem System.recorded_keep {cond : sys.recorded.Cond} {P : E.Op → Prop}
    {I : σ → List sys.Event → Prop} (hentry : ∀ p, sys.Entry p → p.Issues P)
    (h : ∀ (ev : sys.Event) (tr : List sys.Event), P ev.op →
      cond ev.thread ev.op ev.choice (ev.before, tr) →
      sys.run ev.thread ev.op ev.choice ev.before = some (ev.answer, ev.after) →
      I ev.before tr → I ev.after (tr ++ [ev]))
    {s : σ} {d : Config E ε (σ × List sys.Event)}
    (hr : sys.recorded.Reaches cond (Config.idle (s, [])) d) (hs : I s []) :
    I d.shared.1 d.shared.2 := by
  refine (System.reaches_issues sys.recorded (I := fun s => I s.1 s.2) hentry ?_ hr
    (Config.issues_idle _ _) hs).2
  rintro t o ch ⟨s, tr⟩ a ⟨s', tr'⟩ hP hcond hrun hI
  obtain ⟨hown, rfl⟩ := recorded_run hrun
  exact h ⟨t, o, ch, s, a, s'⟩ tr hP hcond hown hI

end Interleaving
