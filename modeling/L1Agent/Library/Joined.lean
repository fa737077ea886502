import Mathlib.Data.List.Basic

/-! # Lists that are joined by a separator

Parts that are joined by a separator can be told from the whole when the separator is in none of
them.  `intercalate_inj` needs this of one of two lists of parts only, when there are as many parts
in the other: the separators are counted (`count_intercalate`).
-/
namespace Joined
variable {α : Type*} [BEq α] [LawfulBEq α]

/-- The separators in the whole are those in the parts and those between them. -/
theorem count_intercalate (sep : α) (x : List α) (xs : List (List α)) :
    ([sep].intercalate (x :: xs)).count sep = (x :: xs).flatten.count sep + xs.length := by
  induction xs generalizing x with
  | nil => simp
  | cons y ys ih =>
    rw [List.intercalate_cons_cons, List.count_append, List.count_append, ih y]
    simp only [List.flatten_cons, List.count_append, List.length_cons, List.count_singleton_self]
    omega

theorem count_eq_zero_of_intercalate {sep : α} {xs ys : List (List α)}
    (hlen : xs.length = ys.length) (hfree : ∀ y ∈ ys, sep ∉ y)
    (h : [sep].intercalate xs = [sep].intercalate ys) : ∀ x ∈ xs, sep ∉ x := by
  cases ys with
  | nil =>
    rw [List.eq_nil_of_length_eq_zero hlen]
    exact fun x hx => absurd hx List.not_mem_nil
  | cons y ys =>
    cases xs with
    | nil => cases hlen
    | cons x xs =>
      have hcount := congrArg (List.count sep) h
      have hzero : (y :: ys).flatten.count sep = 0 := by
        refine List.count_eq_zero.mpr fun hmem => ?_
        obtain ⟨y', hy', hsep⟩ := List.mem_flatten.mp hmem
        exact hfree y' hy' hsep
      rw [count_intercalate, count_intercalate, hzero] at hcount
      have hsame : xs.length = ys.length := Nat.succ.inj hlen
      have hnone : (x :: xs).flatten.count sep = 0 := by omega
      intro x' hx' hsep
      exact List.count_eq_zero.mp hnone (List.mem_flatten.mpr ⟨x', hx', hsep⟩)

/-- **Parts without the separator are told from the whole**, among as many parts of any kind. -/
theorem intercalate_inj {sep : α} {xs ys : List (List α)} (hlen : xs.length = ys.length)
    (hfree : ∀ y ∈ ys, sep ∉ y) (h : [sep].intercalate xs = [sep].intercalate ys) : xs = ys := by
  by_cases hnil : ys = []
  · subst hnil
    exact List.eq_nil_of_length_eq_zero hlen
  · have hxs : xs ≠ [] := by
      rintro rfl
      exact hnil (List.eq_nil_of_length_eq_zero hlen.symm)
    have hnone := count_eq_zero_of_intercalate hlen hfree h
    rw [← List.splitOn_intercalate sep hnone hxs, h, List.splitOn_intercalate sep hfree hnil]

end Joined
