import L1Agent.Library.Past

/-! # Values that are drawn once

A thread draws a value that no thread has drawn before, as an id that is made at random is.  Who
has drawn a value is then the one thread that has: a later operation that needs the value of its
own past can only be that thread's.

`System.recorded_drawn` is the statement, for any system in which what is drawn stays issued and a
draw gives what is not.
-/
namespace Interleaving
variable {E : Signature} {ε σ κ : Type} {sys : System E ε σ}

/-- **A value that is drawn is drawn by one thread**, where what has been drawn stays issued, and
a draw gives what is not. -/
theorem System.recorded_drawn {cond : sys.recorded.Cond} (draw : κ → E.Done)
    (issued : σ → κ → Prop)
    (hkeep : ∀ ev : sys.Event,
      sys.run ev.thread ev.op ev.choice ev.before = some (ev.answer, ev.after) →
      ∀ k, issued ev.before k → issued ev.after k)
    (hfresh : ∀ ev : sys.Event,
      sys.run ev.thread ev.op ev.choice ev.before = some (ev.answer, ev.after) →
      ∀ k, draw k = ⟨ev.op, ev.answer⟩ → ¬ issued ev.before k ∧ issued ev.after k)
    {s : σ} {d : Config E ε (σ × List sys.Event)}
    (hr : sys.recorded.Reaches cond (Config.idle (s, [])) d) {t u : Nat} {k : κ}
    (ht : draw k ∈ System.own t d.shared.2) (hu : draw k ∈ System.own u d.shared.2) : t = u := by
  have heach := System.recorded_each hr
  suffices h : (∀ t k, draw k ∈ System.own t d.shared.2 → issued d.shared.1 k) ∧
      ∀ t u k, draw k ∈ System.own t d.shared.2 → draw k ∈ System.own u d.shared.2 → t = u from
    h.2 t u k ht hu
  refine (System.recorded_induction
    (I := fun s tr => (∀ t k, draw k ∈ System.own t tr → issued s k) ∧
      ∀ t u k, draw k ∈ System.own t tr → draw k ∈ System.own u tr → t = u) hr ?_ ?_).1
  · exact ⟨fun t k h => absurd h List.not_mem_nil, fun t u k h => absurd h List.not_mem_nil⟩
  · rintro pre ev post hsplit ⟨hissued, hone⟩
    have hrun := (heach pre ev post hsplit).2
    refine ⟨fun t k hk => ?_, fun t u k ht hu => ?_⟩
    · rcases System.mem_own_snoc.mp hk with hk | ⟨-, hk⟩
      · exact hkeep ev hrun k (hissued t k hk)
      · exact (hfresh ev hrun k hk).2
    · rcases System.mem_own_snoc.mp ht with ht | ⟨ht, hdraw⟩
      · rcases System.mem_own_snoc.mp hu with hu | ⟨-, hdraw⟩
        · exact hone t u k ht hu
        · exact absurd (hissued t k ht) (hfresh ev hrun k hdraw).1
      · rcases System.mem_own_snoc.mp hu with hu | ⟨hu, -⟩
        · exact absurd (hissued u k hu) (hfresh ev hrun k hdraw).1
        · exact ht.symm.trans hu

end Interleaving
