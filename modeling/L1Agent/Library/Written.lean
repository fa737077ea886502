import L1Agent.Library.Past

/-! # What was written last

A part of the state that only certain events write is, at any point of a run, as the last of them
has left it, or as it was at the start.

`System.LastWrote` names the event, and `System.recorded_written` is the fact, for any part of the
state and any account of what an event writes to it.  That the event is one only
(`LastWrote.unique`), and that it is not before one that is known to have written
(`LastWrote.since`), is what proofs then use.
-/
namespace Interleaving
variable {E : Signature} {ε σ α : Type} {sys : System E ε σ}

/-- `o` is the last event of the history that writes, and it writes `a`. -/
def System.LastWrote (writes : sys.Event → Option α) (tr : List sys.Event) (o : sys.Event) (a : α) :
    Prop :=
  ∃ p q, tr = p ++ o :: q ∧ writes o = some a ∧ ∀ e ∈ q, writes e = none

/-- **A part of the state is as it was written last.** -/
theorem System.recorded_written {cond : sys.recorded.Cond} (part : σ → α)
    (writes : sys.Event → Option α)
    (h : ∀ ev : sys.Event,
      sys.run ev.thread ev.op ev.choice ev.before = some (ev.answer, ev.after) →
      part ev.after = (writes ev).getD (part ev.before))
    {s : σ} {d : Config E ε (σ × List sys.Event)}
    (hr : sys.recorded.Reaches cond (Config.idle (s, [])) d) :
    System.Each (fun pre ev => part ev.before = part s ∧ (∀ e ∈ pre, writes e = none) ∨
      ∃ o, System.LastWrote writes pre o (part ev.before)) d.shared.2 := by
  have heach := System.recorded_each hr
  refine (System.recorded_induction
    (I := fun s' tr => part s' = part s ∧ (∀ e ∈ tr, writes e = none) ∨
      ∃ o, System.LastWrote writes tr o (part s')) hr ?_ ?_).2
  · exact Or.inl ⟨rfl, fun e he => absurd he List.not_mem_nil⟩
  · intro pre ev post hsplit hI
    have hstep := h ev (heach pre ev post hsplit).2
    cases hwrites : writes ev with
    | some a =>
      rw [hwrites] at hstep
      exact Or.inr ⟨ev, pre, [], rfl, hwrites.trans (congrArg some hstep.symm),
        fun e he => absurd he List.not_mem_nil⟩
    | none =>
      rw [hwrites] at hstep
      have hsame : part ev.after = part ev.before := hstep
      rw [hsame]
      rcases hI with ⟨hstart, hnone⟩ | ⟨o, p, q, rfl, ho, hnone⟩
      · refine Or.inl ⟨hstart, fun e he => ?_⟩
        rcases List.mem_append.mp he with he | he
        · exact hnone e he
        · rw [List.mem_singleton.mp he, hwrites]
      · refine Or.inr ⟨o, p, q ++ [ev], by simp, ho, fun e he => ?_⟩
        rcases List.mem_append.mp he with he | he
        · exact hnone e he
        · rw [List.mem_singleton.mp he, hwrites]

/-- What was written last was written by the event or after it. -/
theorem System.LastWrote.since {writes : sys.Event → Option α} {p q : List sys.Event}
    {e o : sys.Event} {a b : α} (h : System.LastWrote writes (p ++ e :: q) o a)
    (he : writes e = some b) : o = e ∧ a = b ∨ ∃ x y, q = x ++ o :: y ∧ writes o = some a ∧
      ∀ f ∈ y, writes f = none := by
  obtain ⟨x, y, hsplit, ho, hnone⟩ := h
  have hlast : e ∉ y := by
    intro hmem
    rw [hnone e hmem] at he
    cases he
  have hsame : o = e → a = b := by
    rintro rfl
    exact Option.some.inj (ho.symm.trans he)
  rcases List.append_eq_append_iff.mp hsplit with ⟨z, rfl, hz⟩ | ⟨z, rfl, hz⟩
  · cases z with
    | nil =>
      obtain ⟨rfl, -⟩ := List.cons.inj hz
      exact Or.inl ⟨rfl, hsame rfl⟩
    | cons f z =>
      obtain ⟨rfl, rfl⟩ := List.cons.inj hz
      exact Or.inr ⟨z, y, rfl, ho, hnone⟩
  · cases z with
    | nil =>
      obtain ⟨rfl, -⟩ := List.cons.inj hz
      exact Or.inl ⟨rfl, hsame rfl⟩
    | cons f z =>
      obtain ⟨rfl, rfl⟩ := List.cons.inj hz
      exact absurd (by simp) hlast

theorem System.LastWrote.append {writes : sys.Event → Option α} {tr tr' : List sys.Event}
    {o : sys.Event} {a : α} (h : System.LastWrote writes tr o a)
    (htr' : ∀ e ∈ tr', writes e = none) : System.LastWrote writes (tr ++ tr') o a := by
  obtain ⟨x, y, rfl, ho, hnone⟩ := h
  refine ⟨x, y ++ tr', by simp, ho, fun f hf => ?_⟩
  rcases List.mem_append.mp hf with hf | hf
  · exact hnone f hf
  · exact htr' f hf

theorem System.LastWrote.snoc {writes : sys.Event → Option α} {tr : List sys.Event}
    {o e : sys.Event} {a : α} (h : System.LastWrote writes tr o a) (he : writes e = none) :
    System.LastWrote writes (tr ++ [e]) o a :=
  h.append fun f hf => by rw [List.mem_singleton.mp hf, he]

theorem System.lastWrote_snoc {writes : sys.Event → Option α} (tr : List sys.Event)
    {e : sys.Event} {a : α} (he : writes e = some a) : System.LastWrote writes (tr ++ [e]) e a :=
  ⟨tr, [], rfl, he, fun _ hf => absurd hf List.not_mem_nil⟩

/-- There is one event that wrote last. -/
theorem System.LastWrote.unique {writes : sys.Event → Option α} {tr : List sys.Event}
    {o o' : sys.Event} {a a' : α} (h : System.LastWrote writes tr o a)
    (h' : System.LastWrote writes tr o' a') : o = o' ∧ a = a' := by
  obtain ⟨x, y, rfl, ho, hnone⟩ := h
  rcases h'.since ho with ⟨rfl, rfl⟩ | ⟨z, w, rfl, ho', -⟩
  · exact ⟨rfl, rfl⟩
  · rw [hnone o' (by simp)] at ho'
    cases ho'

end Interleaving
