import L1Agent.Library.Past

/-! # Coroutines that keep control

A coroutine gives up control where it waits, and not at each of its operations: after an operation
that `holds`, the next one of the whole system is of the same thread.

`System.segmented` is the system in which this is so, over the same programs, and
`System.segmented_next` the fact about its recorded runs.
-/
namespace Interleaving
variable {E : Signature} {ε σ : Type} (sys : System E ε σ) (holds : E.Op → Bool)

/-- The system in which a thread keeps control after an operation that `holds`.  The first
component is the thread that has it. -/
def System.segmented : System E ε (Option Nat × σ) where
  Choice := sys.Choice
  run t o ch s :=
    if s.1 = none ∨ s.1 = some t then
      (sys.run t o ch s.2).map fun r => (r.1, (if holds o then some t else none, r.2))
    else none
  Entry := sys.Entry

variable {sys holds}

/-- An operation is one of the system, by a thread that no other one keeps from it. -/
theorem System.segmented_run {t : Nat} {o : E.Op} {ch : sys.Choice} {s s' : Option Nat × σ}
    {x : E.Ans o} (h : (sys.segmented holds).run t o ch s = some (x, s')) :
    (s.1 = none ∨ s.1 = some t) ∧ sys.run t o ch s.2 = some (x, s'.2) ∧
      s'.1 = if holds o then some t else none := by
  obtain ⟨hfree, hrun⟩ := Option.ite_none_right_eq_some.mp h
  obtain ⟨r, hr, heq⟩ := Option.map_eq_some_iff.mp hrun
  cases heq
  exact ⟨hfree, hr, rfl⟩

/-- **After an operation that holds control the next one is of the same thread.** -/
theorem System.segmented_next {cond : (sys.segmented holds).recorded.Cond} {s : σ}
    {d : Config E ε ((Option Nat × σ) × List (sys.segmented holds).Event)}
    (hr : (sys.segmented holds).recorded.Reaches cond (Config.idle ((none, s), [])) d) :
    System.Each (fun (pre : List (sys.segmented holds).Event) ev => ∀ p e, pre = p ++ [e] →
      holds e.op = true → ev.thread = e.thread) d.shared.2 := by
  have heach := System.recorded_each hr
  have hrunning := (System.recorded_induction
    (I := fun st (tr : List (sys.segmented holds).Event) => ∀ p e, tr = p ++ [e] →
      holds e.op = true → st.1 = some e.thread) hr ?_ ?_).2
  · intro pre ev post hsplit p e hpre hholds
    have hfree := (System.segmented_run (heach pre ev post hsplit).2).1
    rw [hrunning pre ev post hsplit p e hpre hholds] at hfree
    exact (Option.some.inj (hfree.resolve_left (Option.some_ne_none _))).symm
  · intro p e hnil
    simp at hnil
  · intro pre ev post hsplit _ p e hlast hholds
    obtain ⟨rfl, hev⟩ := List.append_inj' hlast rfl
    obtain rfl : ev = e := by simpa using hev
    rw [(System.segmented_run (heach pre ev post hsplit).2).2.2, if_pos hholds]

end Interleaving
