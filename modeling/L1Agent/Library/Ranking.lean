import Mathlib.Data.List.Sort
import Mathlib.Order.Lattice

/-! # The first of the best

A list sorted by descending keys, stably, begins with the first of its elements that have the
greatest key.

`head_first` says so, over any linear order of keys; `ranked` is the merge sort of the core library,
and `mem_ranked` and `exists_head` say that it loses nothing and is empty for no other list.
-/
namespace Ranking
variable {α β : Type} [LinearOrder β] (key : α → β)

/-- The list by descending keys; of equal keys the first stays first. -/
def ranked (xs : List α) : List α := xs.mergeSort fun a b => key b ≤ key a

variable {key}

theorem descends_trans (a b c : α) (hab : decide (key b ≤ key a) = true)
    (hbc : decide (key c ≤ key b) = true) : decide (key c ≤ key a) = true := by
  rw [decide_eq_true_eq] at hab hbc ⊢
  exact hbc.trans hab

theorem descends_total (a b : α) :
    (decide (key b ≤ key a) || decide (key a ≤ key b)) = true := by
  rw [Bool.or_eq_true, decide_eq_true_eq, decide_eq_true_eq]
  exact le_total (key b) (key a)

theorem mem_ranked {xs : List α} {x : α} : x ∈ ranked key xs ↔ x ∈ xs :=
  (List.mergeSort_perm xs _).mem_iff

/-- The head has the greatest key. -/
theorem le_head {xs others : List α} {best : α} (h : ranked key xs = best :: others) {x : α}
    (hx : x ∈ xs) : key x ≤ key best := by
  have hsorted : (best :: others).Pairwise fun a b => decide (key b ≤ key a) = true := by
    rw [← h]
    exact List.pairwise_mergeSort descends_trans descends_total xs
  have hmem : x ∈ best :: others := by
    rw [← h]
    exact mem_ranked.mpr hx
  rcases List.mem_cons.mp hmem with rfl | hx
  · exact le_refl _
  · exact of_decide_eq_true ((List.pairwise_cons.mp hsorted).1 x hx)

/-- A list that is not empty has a best element. -/
theorem exists_head {xs : List α} (hne : xs ≠ []) :
    ∃ best others, ranked key xs = best :: others := by
  obtain ⟨x, hx⟩ := List.exists_mem_of_ne_nil xs hne
  match h : ranked key xs with
  | [] =>
    have hmem : x ∈ ranked key xs := mem_ranked.mpr hx
    rw [h] at hmem
    exact absurd hmem List.not_mem_nil
  | best :: others => exact ⟨best, others, rfl⟩

/-- **The head is the first that has the greatest key.** -/
theorem head_first {xs others : List α} {best : α} (h : ranked key xs = best :: others) :
    ∃ before after, xs = before ++ best :: after ∧ (∀ x ∈ before, key x < key best) ∧
      ∀ x ∈ after, key x ≤ key best := by
  induction xs generalizing others with
  | nil =>
    rw [ranked, List.mergeSort_nil] at h
    cases h
  | cons a xs ih =>
    -- Where the first element is sorted in says whether anything is better than it.
    obtain ⟨front, back, hall, hrest, hfront⟩ :=
      @List.mergeSort_cons α (fun a b => decide (key b ≤ key a)) descends_trans descends_total a xs
    have hle : ∀ x ∈ a :: xs, key x ≤ key best := fun x hx => le_head h hx
    have hshape : front ++ a :: back = best :: others := by
      rw [← hall]
      exact h
    match front, hshape, hfront, hrest with
    | [], hshape, _, _ =>
      obtain ⟨rfl, -⟩ := List.cons.inj hshape
      refine ⟨[], xs, rfl, fun x hx => absurd hx List.not_mem_nil, fun x hx => ?_⟩
      exact hle x (List.mem_cons_of_mem _ hx)
    | b :: front, hshape, hfront, hrest =>
      obtain ⟨rfl, -⟩ := List.cons.inj hshape
      obtain ⟨before, after, rfl, hbefore, hafter⟩ := @ih (front ++ back) hrest
      have hbetter : key a < key b := by
        have hnot := hfront b (List.mem_cons_self ..)
        simpa using hnot
      refine ⟨a :: before, after, rfl, ?_, hafter⟩
      rw [List.forall_mem_cons]
      exact ⟨hbetter, hbefore⟩

end Ranking
