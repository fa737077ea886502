import Mathlib.Data.List.Pairwise

/-! # A guard against replays

A guard keeps records of what has been accepted, and forgets a record when a reading of the clock
finds it over.  What has been accepted comes again at readings that its deadline allows, if at
all.  So nothing is accepted twice when three things are seen to: nothing is accepted while a
record of its key is kept, it is accepted before its deadline by every reading that records have
been forgotten at, and its record lasts for as long as the deadline allows (`Sound.accept`).

The readings need not be in order, and the records need not be forgotten when they are over.

`Guard.Sound` is the invariant, over any type of items, keys and readings.  To forget records keeps
it (`Guard.Sound.forget`), and so does to accept an item in time (`Guard.Sound.accept`).
-/
namespace Replays

/-- What the records and the accepted items say: their keys, and the readings of the clock up to
which the one lasts and the other may come. -/
structure Guard (R K T A : Type) where
  key : R → K
  lasts : R → T → Prop
  keyOf : A → K
  fresh : A → T → Prop

variable {R K T A : Type} {g : Guard R K T A} {readings : List T} {kept kept' : List R}
  {accepted : List A}

/-- A record is kept for the item, for as long as it may come. -/
def Guard.Covered (g : Guard R K T A) (kept : List R) (a : A) : Prop :=
  ∃ k ∈ kept, g.key k = g.keyOf a ∧ ∀ t, g.fresh a t → g.lasts k t

/-- **What has been done** with the items accepted so far: no two with the same key are such that
the first may still come when the second does, and each has its record for as long as no reading
was too late for it. -/
structure Guard.Sound (g : Guard R K T A) (readings : List T) (kept : List R)
    (accepted : List A) : Prop where
  once : accepted.Pairwise fun a b => ¬ (g.keyOf a = g.keyOf b ∧ ∀ t, g.fresh b t → g.fresh a t)
  covers : ∀ a ∈ accepted, (∀ t ∈ readings, g.fresh a t) → g.Covered kept a

theorem Guard.Sound.start : g.Sound readings kept [] := ⟨.nil, by simp⟩

/-- **Records are forgotten** at a reading: those that are not over stay. -/
theorem Guard.Sound.forget (h : g.Sound readings kept accepted) {now : T}
    (hstay : ∀ k ∈ kept, g.lasts k now → k ∈ kept') :
    g.Sound (readings ++ [now]) kept' accepted := by
  refine ⟨h.once, fun a ha hfresh => ?_⟩
  obtain ⟨k, hk, hkey, hlasts⟩ := h.covers a ha fun t ht => hfresh t (List.mem_append_left _ ht)
  exact ⟨k, hstay k hk (hlasts now (hfresh now (by simp))), hkey, hlasts⟩

/-- Further records do no harm. -/
theorem Guard.Sound.grow (h : g.Sound readings kept accepted) (hsub : ∀ k ∈ kept, k ∈ kept') :
    g.Sound readings kept' accepted := by
  refine ⟨h.once, fun a ha hfresh => ?_⟩
  obtain ⟨k, hk, hkey, hlasts⟩ := h.covers a ha hfresh
  exact ⟨k, hsub k hk, hkey, hlasts⟩

/-- **An item is accepted** in time, no record of its key being kept, and has one from now on. -/
theorem Guard.Sound.accept (h : g.Sound readings kept accepted) {a : A}
    (hnew : ∀ k ∈ kept, g.key k ≠ g.keyOf a) (hfresh : ∀ t ∈ readings, g.fresh a t)
    (hsub : ∀ k ∈ kept, k ∈ kept') (hcovered : g.Covered kept' a) :
    g.Sound readings kept' (accepted ++ [a]) := by
  refine ⟨List.pairwise_append.mpr ⟨h.once, List.pairwise_singleton _ _, ?_⟩, fun b hb hb' => ?_⟩
  · rintro b hb a' ha' ⟨hkey, hlater⟩
    cases List.mem_singleton.mp ha'
    obtain ⟨k, hk, hkey', -⟩ := h.covers b hb fun t ht => hlater t (hfresh t ht)
    exact hnew k hk (hkey'.trans hkey)
  · rcases List.mem_append.mp hb with hb | hb
    · exact (h.grow hsub).covers b hb hb'
    · cases List.mem_singleton.mp hb
      exact hcovered

/-- Of the accepted items with the same key that may come at the same readings there is one. -/
theorem Guard.Sound.unique (h : g.Sound readings kept accepted) {a b : A} (ha : a ∈ accepted)
    (hb : b ∈ accepted) (hkey : g.keyOf a = g.keyOf b) (hfresh : ∀ t, g.fresh a t ↔ g.fresh b t) :
    a = b := by
  by_contra hne
  have hsymm : Std.Symm fun a b => ¬ (g.keyOf a = g.keyOf b ∧ ∀ t, g.fresh a t ↔ g.fresh b t) :=
    ⟨fun a b hab hba => hab ⟨hba.1.symm, fun t => (hba.2 t).symm⟩⟩
  have honce := h.once.imp (S := fun a b =>
    ¬ (g.keyOf a = g.keyOf b ∧ ∀ t, g.fresh a t ↔ g.fresh b t)) fun hab hsame =>
      hab ⟨hsame.1, fun t => (hsame.2 t).mpr⟩
  exact honce.forall ha hb hne ⟨hkey, hfresh⟩

end Replays
