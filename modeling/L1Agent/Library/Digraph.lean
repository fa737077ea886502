import Mathlib.Order.WellFounded
import Mathlib.Data.List.Dedup
import Mathlib.Data.List.Perm.Subperm
import Mathlib.Logic.Function.Iterate

/-! # Searching a finite directed graph

Two searches over a graph given by its list of successors.  `visit` is the
depth-first search for a cycle: it carries the nodes that lie on the current path
and the nodes that have been left for good.  `explore` is the closure of a stack
of nodes under an edge relation, each node expanded at most once.

Both take a bound on the number of steps.  For `visit` the bound stands for the
depth, and running into it is reported as a cycle, so that a negative answer
means what it says whatever the bound was (`visit_acc`).  For `explore` the bound
suffices when every node comes from a finite list (`explore_closed`).

What comes of it: where the bound suffices, `visit` finds a cycle exactly when there is one on the
way (`visit_iff`), and `explore` gives the nodes that can be reached over admitted ones, and no
other (`explore_iff`).
-/
namespace Digraph

variable {α : Type}

/-! ## Walks that end -/

/-- `b` can be stepped to from `a`. -/
def Edge (succ : α → List α) (b a : α) : Prop := b ∈ succ a

/-- Every node of the list starts only walks that end. -/
def Ends (succ : α → List α) (nodes : List α) : Prop := ∀ a ∈ nodes, Acc (Edge succ) a

/-- A node all of whose walks end lies on no cycle. -/
theorem not_edge_self {succ : α → List α} {a : α} (h : Acc (Edge succ) a) :
    ¬ Relation.TransGen (Edge succ) a a := by
  have h' := h.transGen
  induction h' with
  | intro x _ ih => exact fun hx => ih x hx (h.inv_of_transGen hx) hx

/-- A walk: each node is followed by one of its successors. -/
def Walk (succ : α → List α) : List α → Prop := List.IsChain fun a b => b ∈ succ a

theorem walk_reach {succ : α → List α} {as : List α} {b : α} (h : Walk succ (b :: as)) :
    ∀ x ∈ b :: as, Relation.ReflTransGen (Edge succ) x b := by
  induction as generalizing b with
  | nil => rintro x hx; rw [List.mem_singleton.mp hx]
  | cons c as ih =>
    obtain ⟨hbc, hrest⟩ := List.isChain_cons_cons.mp h
    rintro x hx
    rcases List.mem_cons.mp hx with rfl | hx
    · exact .refl
    · exact .tail (ih hrest x hx) hbc

/-- **A walk from such a node visits no node twice.** -/
theorem walk_nodup {succ : α → List α} {a : α} {as : List α} (ha : Acc (Edge succ) a)
    (h : Walk succ (a :: as)) : (a :: as).Nodup := by
  induction as generalizing a with
  | nil => simp
  | cons b as ih =>
    obtain ⟨hab, hrest⟩ := List.isChain_cons_cons.mp h
    refine List.nodup_cons.mpr ⟨fun hmem => ?_, ih (ha.inv hab) hrest⟩
    exact not_edge_self ha (.tail' (walk_reach hrest a hmem) hab)

/-! ## Depth-first search for a cycle -/

/-- `f` on each node in turn, until one of the answers is `true`. -/
def visitAll (f : List α → α → Bool × List α) : List α → List α → Bool × List α
  | done, [] => (false, done)
  | done, a :: as =>
    if (f done a).1 then f done a else visitAll f (f done a).2 as

theorem visitAll_acc {succ : α → List α} {f : List α → α → Bool × List α}
    (hf : ∀ done a done', Ends succ done → f done a = (false, done') →
      Ends succ done' ∧ a ∈ done' ∧ done ⊆ done') :
    ∀ {as done done' : List α}, Ends succ done → visitAll f done as = (false, done') →
      Ends succ done' ∧ as ⊆ done' ∧ done ⊆ done' := by
  intro as
  induction as with
  | nil =>
    intro done done' hd h
    cases h
    exact ⟨hd, List.nil_subset _, List.Subset.refl _⟩
  | cons a as ih =>
    intro done done' hd h
    rw [visitAll] at h
    split at h
    · rename_i hfound
      rw [h] at hfound
      cases hfound
    · rename_i hnot
      have heq : f done a = (false, (f done a).2) := Prod.ext (by simpa using hnot) rfl
      obtain ⟨hd1, ha1, hs1⟩ := hf _ _ _ hd heq
      obtain ⟨hd2, ha2, hs2⟩ := ih hd1 h
      exact ⟨hd2, List.cons_subset.mpr ⟨hs2 ha1, ha2⟩, fun x hx => hs2 (hs1 hx)⟩

variable [DecidableEq α]

/-- Whether a cycle is found from `a`, and the nodes that have been left: `path`
holds the nodes the search is inside of. -/
def visit (succ : α → List α) : Nat → List α → List α → α → Bool × List α
  | 0, _, done, _ => (true, done)
  | n + 1, path, done, a =>
    if a ∈ done then (false, done)
    else if a ∈ path then (true, done)
    else
      let below := visitAll (visit succ n (a :: path)) done (succ a)
      if below.1 then below else (false, a :: below.2)

/-- **A negative answer is right**: from every node that has been left, and from
the start itself, each walk ends. -/
theorem visit_acc {succ : α → List α} {n : Nat} {path done done' : List α} {a : α}
    (hd : Ends succ done) (h : visit succ n path done a = (false, done')) :
    Ends succ done' ∧ a ∈ done' ∧ done ⊆ done' := by
  induction n generalizing path done done' a with
  | zero => cases h
  | succ n ih =>
    rw [visit] at h
    split at h
    · rename_i ha
      cases h
      exact ⟨hd, ha, List.Subset.refl _⟩
    split at h
    · cases h
    simp only at h
    split at h
    · rename_i hfound
      rw [h] at hfound
      cases hfound
    rename_i hnot
    cases h
    have heq : visitAll (visit succ n (a :: path)) done (succ a) =
        (false, (visitAll (visit succ n (a :: path)) done (succ a)).2) :=
      Prod.ext (by simpa using hnot) rfl
    obtain ⟨h1, h2, h3⟩ := visitAll_acc (fun d b d' hd hv => ih hd hv) hd heq
    refine ⟨fun x hx => ?_, List.mem_cons_self .., fun x hx => List.mem_cons_of_mem _ (h3 hx)⟩
    rcases List.mem_cons.mp hx with rfl | hx
    · exact Acc.intro _ fun b hb => h1 b (h2 hb)
    · exact h1 x hx

/-- `b` is one step from `a`. -/
def Next (succ : α → List α) (a b : α) : Prop := b ∈ succ a

/-- A cycle can be reached. -/
def Cyclic (succ : α → List α) (a : α) : Prop :=
  ∃ x, Relation.ReflTransGen (Next succ) a x ∧ Relation.TransGen (Next succ) x x

omit [DecidableEq α] in
theorem visitAll_true {f : List α → α → Bool × List α} {done as : List α}
    (h : (visitAll f done as).1 = true) : ∃ d, ∃ a ∈ as, (f d a).1 = true := by
  induction as generalizing done with
  | nil => cases h
  | cons a as ih =>
    rw [visitAll] at h
    by_cases hfound : (f done a).1 = true
    · exact ⟨done, a, List.mem_cons_self .., hfound⟩
    · rw [if_neg hfound] at h
      obtain ⟨d, b, hb, hfound⟩ := ih h
      exact ⟨d, b, List.mem_cons_of_mem _ hb, hfound⟩

/-- **A positive answer is right** where the bound is more than the nodes that are not on the path:
the path does not visit a node twice, so the search is never cut off. -/
theorem visit_true {succ : α → List α} {nodes : List α} (hnodes : ∀ a, succ a ⊆ nodes) {n : Nat}
    {path done : List α} {a : α} (hn : nodes.length < n + path.length) (hpath : path.Nodup)
    (hsub : path ⊆ nodes) (ha : a ∈ nodes)
    (hreach : ∀ p ∈ path, Relation.TransGen (Next succ) p a)
    (h : (visit succ n path done a).1 = true) : Cyclic succ a := by
  induction n generalizing path done a with
  | zero =>
    have hle := (List.subperm_of_subset hpath hsub).length_le
    omega
  | succ n ih =>
    rw [visit] at h
    by_cases hdone : a ∈ done
    · rw [if_pos hdone] at h
      cases h
    rw [if_neg hdone] at h
    by_cases hon : a ∈ path
    · exact ⟨a, .refl, hreach a hon⟩
    rw [if_neg hon] at h
    by_cases hbelow : (visitAll (visit succ n (a :: path)) done (succ a)).1 = true
    · obtain ⟨d, b, hb, hfound⟩ := visitAll_true hbelow
      have hstep : Next succ a b := hb
      have hcyclic : Cyclic succ b := by
        refine ih ?_ (List.nodup_cons.mpr ⟨hon, hpath⟩) (List.cons_subset.mpr ⟨ha, hsub⟩)
          (hnodes a hb) ?_ hfound
        · rw [List.length_cons]
          omega
        · intro p hp
          rcases List.mem_cons.mp hp with rfl | hp
          · exact .single hstep
          · exact (hreach p hp).tail hstep
      obtain ⟨x, hx, hcycle⟩ := hcyclic
      exact ⟨x, .head hstep hx, hcycle⟩
    · simp only [if_neg hbelow] at h
      cases h

omit [DecidableEq α] in
/-- Where every walk ends no cycle can be reached. -/
theorem not_cyclic {succ : α → List α} {a : α} (h : Acc (Edge succ) a) : ¬Cyclic succ a := by
  rintro ⟨x, hx, hcycle⟩
  have hacc : Acc (Edge succ) x := by
    clear hcycle
    induction hx with
    | refl => exact h
    | tail _ hstep ih => exact ih.inv hstep
  exact not_edge_self hacc (Relation.transGen_swap.mp hcycle)

/-- **The search is exact.** -/
theorem visit_iff {succ : α → List α} {nodes : List α} (hnodes : ∀ a, succ a ⊆ nodes) {n : Nat}
    (hn : nodes.length < n) {a : α} (ha : a ∈ nodes) :
    (visit succ n [] [] a).1 = true ↔ Cyclic succ a := by
  constructor
  · exact visit_true hnodes (by simpa using hn) List.nodup_nil (List.nil_subset _) ha
      fun p hp => nomatch hp
  · intro hcyclic
    by_contra hfound
    have heq : visit succ n [] [] a = (false, (visit succ n [] [] a).2) :=
      Prod.ext (by simpa using hfound) rfl
    have hacc := visit_acc (fun x hx => absurd hx List.not_mem_nil) heq
    exact not_cyclic (hacc.1 a hacc.2.1) hcyclic

/-! ## Closure under the edges -/

/-- The nodes reached from the stack `pending`, added to `seen`.  A node that is
not admitted is dropped. -/
def explore (admits : α → Bool) (succ : α → List α) : Nat → List α → List α → List α
  | 0, _, seen => seen
  | _ + 1, [], seen => seen
  | n + 1, a :: pending, seen =>
    if !admits a || a ∈ seen then explore admits succ n pending seen
    else explore admits succ n ((succ a).reverse ++ pending) (a :: seen)

/-- What is left to do: the stack, and `d` pushes for each node of `nodes` that
has not been seen. -/
def work (nodes : List α) (d : Nat) (pending seen : List α) : Nat :=
  pending.length + d * (nodes.filter fun a => a ∉ seen).length

theorem work_le (nodes : List α) (d : Nat) (pending seen : List α) :
    work nodes d pending seen ≤ pending.length + d * nodes.length :=
  Nat.add_le_add_left (Nat.mul_le_mul_left d (List.length_filter_le _ _)) _

theorem filter_not_mem_cons_lt {nodes seen : List α} {a : α} (ha : a ∈ nodes)
    (hs : a ∉ seen) :
    (nodes.filter fun x => x ∉ a :: seen).length < (nodes.filter fun x => x ∉ seen).length := by
  have hsub : (nodes.filter fun x => x ∉ a :: seen).Sublist (nodes.filter fun x => x ∉ seen) := by
    refine List.monotone_filter_right _ fun x hx => ?_
    simp only [List.mem_cons, decide_eq_true_eq, not_or] at hx ⊢
    exact hx.2
  refine lt_of_le_of_ne hsub.length_le fun hlen => ?_
  have hmem : a ∈ nodes.filter fun x => x ∉ seen := List.mem_filter.mpr ⟨ha, by simpa using hs⟩
  rw [← hsub.eq_of_length hlen] at hmem
  simpa using (List.mem_filter.mp hmem).2

/-- What the search has established: nodes seen before, the nodes on the stack
and the successors of every node expanded on the way are in the result. -/
theorem explore_closed {admits : α → Bool} {succ : α → List α} {nodes : List α} {d : Nat}
    (hnodes : ∀ a, admits a = true → a ∈ nodes) (hd : ∀ a, (succ a).length ≤ d)
    {n : Nat} {pending seen : List α} (hn : work nodes d pending seen < n)
    (hseen : ∀ a ∈ seen, ∀ b ∈ succ a, admits b = true → b ∈ seen ∨ b ∈ pending) :
    (∀ a ∈ seen, a ∈ explore admits succ n pending seen) ∧
    (∀ a ∈ pending, admits a = true → a ∈ explore admits succ n pending seen) ∧
    ∀ a ∈ explore admits succ n pending seen, ∀ b ∈ succ a, admits b = true →
      b ∈ explore admits succ n pending seen := by
  induction n generalizing pending seen with
  | zero => omega
  | succ n ih =>
    cases pending with
    | nil =>
      refine ⟨fun a ha => ha, fun a ha => absurd ha List.not_mem_nil, fun a ha b hb hadm => ?_⟩
      exact (hseen a ha b hb hadm).resolve_right List.not_mem_nil
    | cons a pending =>
      rw [explore]
      split
      · rename_i hskip
        have hn' : work nodes d pending seen < n := by
          simp only [work, List.length_cons] at hn ⊢
          omega
        have hgone : ∀ b, admits b = true → b = a → b ∈ seen := by
          rintro b hadm rfl
          simpa [hadm] using hskip
        obtain ⟨h1, h2, h3⟩ := ih hn' fun x hx b hb hadm => by
          rcases hseen x hx b hb hadm with h | h
          · exact Or.inl h
          · rcases List.mem_cons.mp h with h | h
            · exact Or.inl (hgone b hadm h)
            · exact Or.inr h
        refine ⟨h1, fun b hb hadm => ?_, h3⟩
        rcases List.mem_cons.mp hb with h | h
        · exact h1 b (hgone b hadm h)
        · exact h2 b h hadm
      · rename_i hnew
        obtain ⟨hadm, hns⟩ : admits a = true ∧ a ∉ seen := by simpa using hnew
        have hn' : work nodes d ((succ a).reverse ++ pending) (a :: seen) < n := by
          have hlt := filter_not_mem_cons_lt (hnodes a hadm) hns
          have hmul := Nat.mul_le_mul_left d (Nat.succ_le_of_lt hlt)
          have hda := hd a
          simp only [work, List.length_cons, List.length_append, List.length_reverse] at hn ⊢
          rw [Nat.mul_succ] at hmul
          omega
        obtain ⟨h1, h2, h3⟩ := ih hn' fun x hx b hb hadmb => by
          rcases List.mem_cons.mp hx with rfl | hx
          · exact Or.inr (List.mem_append_left _ (List.mem_reverse.mpr hb))
          · rcases hseen x hx b hb hadmb with h | h
            · exact Or.inl (List.mem_cons_of_mem _ h)
            · rcases List.mem_cons.mp h with rfl | h
              · exact Or.inl (List.mem_cons_self ..)
              · exact Or.inr (List.mem_append_right _ h)
        refine ⟨fun x hx => h1 x (List.mem_cons_of_mem _ hx), fun b hb hadmb => ?_, h3⟩
        rcases List.mem_cons.mp hb with rfl | h
        · exact h1 b (List.mem_cons_self ..)
        · exact h2 b (List.mem_append_right _ h) hadmb

/-! ### What the closure is -/

/-- One round of the search: a node is taken from the stack, and expanded if it is new. -/
def expand (admits : α → Bool) (succ : α → List α) : List α × List α → List α × List α
  | ([], seen) => ([], seen)
  | (a :: pending, seen) =>
    if !admits a || a ∈ seen then (pending, seen) else ((succ a).reverse ++ pending, a :: seen)

/-- The search is so many rounds, one after the other. -/
theorem explore_eq_rounds (admits : α → Bool) (succ : α → List α) (n : Nat)
    (pending seen : List α) :
    explore admits succ n pending seen = ((expand admits succ)^[n] (pending, seen)).2 := by
  induction n generalizing pending seen with
  | zero => rw [explore, Function.iterate_zero, id]
  | succ n ih =>
    rw [Function.iterate_succ_apply]
    cases pending with
    | nil =>
      rw [explore, expand, ← ih]
      cases n with
      | zero => rfl
      | succ n => rfl
    | cons a pending =>
      rw [explore, expand]
      split
      · rw [ih]
      · rw [ih]

/-- A round takes work away. -/
theorem work_expand {admits : α → Bool} {succ : α → List α} {nodes : List α} {d : Nat}
    (hnodes : ∀ a, admits a = true → a ∈ nodes) (hd : ∀ a, (succ a).length ≤ d) (a : α)
    (pending seen : List α) :
    work nodes d (expand admits succ (a :: pending, seen)).1
        (expand admits succ (a :: pending, seen)).2 <
      work nodes d (a :: pending) seen := by
  rw [expand]
  split
  · simp only [work, List.length_cons]
    omega
  · rename_i hnew
    obtain ⟨hadm, hns⟩ : admits a = true ∧ a ∉ seen := by simpa using hnew
    have hlt := filter_not_mem_cons_lt (hnodes a hadm) hns
    have hmul := Nat.mul_le_mul_left d (Nat.succ_le_of_lt hlt)
    have hda := hd a
    simp only [work, List.length_cons, List.length_append, List.length_reverse]
    rw [Nat.mul_succ] at hmul
    omega

/-- **The search ends**: after enough rounds the stack is empty. -/
theorem rounds_end {admits : α → Bool} {succ : α → List α} {nodes : List α} {d : Nat}
    (hnodes : ∀ a, admits a = true → a ∈ nodes) (hd : ∀ a, (succ a).length ≤ d) {n : Nat}
    {s : List α × List α} (hn : work nodes d s.1 s.2 ≤ n) :
    ((expand admits succ)^[n] s).1 = [] := by
  induction n generalizing s with
  | zero =>
    have hlen : s.1.length = 0 := by
      unfold work at hn
      omega
    exact List.eq_nil_of_length_eq_zero hlen
  | succ n ih =>
    obtain ⟨pending, seen⟩ := s
    cases pending with
    | nil =>
      have hfixed : expand admits succ ([], seen) = ([], seen) := rfl
      rw [Function.iterate_fixed hfixed]
    | cons a pending =>
      rw [Function.iterate_succ_apply]
      exact ih (Nat.le_of_lt_succ ((work_expand hnodes hd a pending seen).trans_le hn))

/-- Only what can be reached is seen. -/
theorem reached_of_explore {admits : α → Bool} {succ : α → List α} {start : α} {n : Nat}
    {pending seen : List α}
    (hpending : ∀ a ∈ pending, Relation.ReflTransGen (Next succ) start a)
    (hseen : ∀ a ∈ seen, admits a = true ∧ Relation.ReflTransGen (Next succ) start a) :
    ∀ a ∈ explore admits succ n pending seen,
      admits a = true ∧ Relation.ReflTransGen (Next succ) start a := by
  induction n generalizing pending seen with
  | zero => exact hseen
  | succ n ih =>
    cases pending with
    | nil => exact hseen
    | cons a pending =>
      have hrest := fun b hb => hpending b (List.mem_cons_of_mem _ hb)
      rw [explore]
      by_cases hskip : (!admits a || decide (a ∈ seen)) = true
      · rw [if_pos hskip]
        exact ih hrest hseen
      · rw [if_neg hskip]
        obtain ⟨hadm, -⟩ : admits a = true ∧ a ∉ seen := by simpa using hskip
        have ha := hpending a (List.mem_cons_self ..)
        refine ih (fun b hb => ?_) fun b hb => ?_
        · rcases List.mem_append.mp hb with hb | hb
          · exact ha.tail (List.mem_reverse.mp hb)
          · exact hrest b hb
        · rcases List.mem_cons.mp hb with rfl | hb
          · exact ⟨hadm, ha⟩
          · exact hseen b hb

/-- **The closure is exact**: it has the nodes that can be reached over admitted ones. -/
theorem explore_iff {admits : α → Bool} {succ : α → List α} {nodes : List α} {d : Nat}
    (hnodes : ∀ a, admits a = true → a ∈ nodes) (hd : ∀ a, (succ a).length ≤ d)
    (hadmits : ∀ a b, b ∈ succ a → admits a = true) {start : α} {n : Nat}
    (hn : work nodes d [start] [] < n) {a : α} :
    a ∈ explore admits succ n [start] [] ↔
      admits a = true ∧ Relation.ReflTransGen (Next succ) start a := by
  constructor
  · refine reached_of_explore (fun b hb => ?_)
      (fun b hb => absurd hb List.not_mem_nil) a
    rw [List.mem_singleton.mp hb]
  · rintro ⟨ha, hreach⟩
    obtain ⟨-, hstart, hclosed⟩ := explore_closed hnodes hd hn
      fun b hb => absurd hb List.not_mem_nil
    induction hreach with
    | refl => exact hstart start (List.mem_singleton_self start) ha
    | tail _ hstep ih => exact hclosed _ (ih (hadmits _ _ hstep)) _ hstep ha

end Digraph
