import Mathlib.Data.List.Induction
import Mathlib.Data.List.MinMax
import Mathlib.Algebra.Order.Group.Int

/-! # Hash chains

Each entry of a chain has the next number, names the hash of the entry before it, and carries the
digest of what it says, these two included.  Where different entries have different digests, the
last hash of a chain determines the whole of it (`Linked.commit`).

What is asked of the hash is only that it tells the entries apart.  `Linked.highest` says that the
last entry has the largest number, so that the end of a chain can be found without going
through it.
-/
namespace HashChain

/-- What an entry says, and what is computed of it. -/
structure Links (R H : Type) where
  seq : R → Int
  prev : R → H
  hash : R → H
  digest : R → H

variable {R H : Type} {l : Links R H}

/-- **The entries follow each other**, from a number and a hash on. -/
def Links.Linked (l : Links R H) : Int → H → List R → Prop
  | _, _, [] => True
  | n, h, r :: rs => l.seq r = n ∧ l.prev r = h ∧ l.digest r = l.hash r ∧
      l.Linked (n + 1) (l.hash r) rs

/-- The hash that the next entry names. -/
def Links.last (l : Links R H) (h : H) : List R → H
  | [] => h
  | r :: rs => l.last (l.hash r) rs

theorem last_concat (h : H) (rs : List R) (r : R) : l.last h (rs ++ [r]) = l.hash r := by
  induction rs generalizing h with
  | nil => rfl
  | cons s rs ih => exact ih (l.hash s)

theorem linked_append {n : Int} {h : H} {rs ss : List R} :
    l.Linked n h (rs ++ ss) ↔
      l.Linked n h rs ∧ l.Linked (n + rs.length) (l.last h rs) ss := by
  induction rs generalizing n h with
  | nil => simp [Links.Linked, Links.last]
  | cons r rs ih =>
    have hlength : n + 1 + (rs.length : Int) = n + ((r :: rs).length : Int) := by
      rw [List.length_cons]
      omega
    rw [List.cons_append, Links.Linked, Links.Linked, Links.last, ih, hlength]
    constructor
    · rintro ⟨hseq, hprev, hdigest, htail, hrest⟩
      exact ⟨⟨hseq, hprev, hdigest, htail⟩, hrest⟩
    · rintro ⟨⟨hseq, hprev, hdigest, htail⟩, hrest⟩
      exact ⟨hseq, hprev, hdigest, htail, hrest⟩

theorem linked_concat {n : Int} {h : H} {rs : List R} {r : R} :
    l.Linked n h (rs ++ [r]) ↔ l.Linked n h rs ∧ l.seq r = n + rs.length ∧
      l.prev r = l.last h rs ∧ l.digest r = l.hash r := by
  rw [linked_append]
  simp [Links.Linked]

theorem Linked.take {n : Int} {h : H} {rs : List R} (hl : l.Linked n h rs) (k : Nat) :
    l.Linked n h (rs.take k) := by
  rw [← List.take_append_drop k rs] at hl
  exact (linked_append.mp hl).1

/-- The numbers of the entries. -/
theorem Linked.seq_mem {n : Int} {h : H} {rs : List R} (hl : l.Linked n h rs) :
    ∀ r ∈ rs, n ≤ l.seq r ∧ l.seq r < n + rs.length := by
  induction rs generalizing n h with
  | nil => exact fun _ hr => nomatch hr
  | cons s rs ih =>
    obtain ⟨hseq, -, -, htail⟩ := hl
    intro r hr
    rw [List.length_cons]
    rcases List.mem_cons.mp hr with rfl | hr
    · omega
    · have hr' := ih htail r hr
      omega

theorem Linked.pairwise {n : Int} {h : H} {rs : List R} (hl : l.Linked n h rs) :
    rs.Pairwise fun r s => l.seq r < l.seq s := by
  induction rs generalizing n h with
  | nil => exact .nil
  | cons r rs ih =>
    obtain ⟨hseq, -, -, htail⟩ := hl
    refine List.pairwise_cons.mpr ⟨fun s hs => ?_, ih htail⟩
    have hs' := (Linked.seq_mem htail s hs).1
    omega

/-- The entry with the largest number, the first of several. -/
def highest (seq : R → Int) (rs : List R) : Option R :=
  @List.argmax R Int Int.instLinearOrder.toPartialOrder.toPreorder Int.decLt seq rs

/-- **The last entry has the largest number.** -/
theorem Linked.highest {n : Int} {h : H} {rs : List R} (hl : l.Linked n h rs) :
    HashChain.highest l.seq rs = rs.getLast? := by
  unfold HashChain.highest
  induction rs using List.reverseRec with
  | nil => rfl
  | append_singleton rs r ih =>
    obtain ⟨hrs, hseq, -, -⟩ := linked_concat.mp hl
    rw [List.argmax_concat, ih hrs, List.getLast?_concat]
    cases hlast : rs.getLast? with
    | none => rfl
    | some s =>
      have hs := (Linked.seq_mem hrs s (List.mem_of_getLast? hlast)).2
      exact if_pos (by omega)

/-- **A chain is committed to by its last hash**: as many entries with the same last hash are the
same entries. -/
theorem Linked.commit {n : Int} {h : H} {rs ss : List R} (hr : l.Linked n h rs)
    (hs : l.Linked n h ss) (hlength : rs.length = ss.length) (hlast : l.last h rs = l.last h ss)
    (hdigest : ∀ r ∈ rs, ∀ s ∈ ss, l.digest r = l.digest s → l.hash r = l.hash s → r = s) :
    rs = ss := by
  induction rs using List.reverseRec generalizing ss with
  | nil => exact (List.length_eq_zero_iff.mp hlength.symm).symm
  | append_singleton rs r ih =>
    rcases List.eq_nil_or_concat ss with rfl | ⟨ss, s, rfl⟩
    · simp at hlength
    rw [List.concat_eq_append] at hs hlength hlast hdigest ⊢
    obtain ⟨hrs, -, hprev, hhash⟩ := linked_concat.mp hr
    obtain ⟨hss, -, hprev', hhash'⟩ := linked_concat.mp hs
    rw [last_concat, last_concat] at hlast
    have hsame : r = s := hdigest r (by simp) s (by simp)
      (hhash.trans (hlast.trans hhash'.symm)) hlast
    subst hsame
    have hbefore : l.last h rs = l.last h ss := hprev.symm.trans hprev'
    rw [ih hrs hss (by simpa using hlength) hbefore fun a ha b hb =>
      hdigest a (List.mem_append_left _ ha) b (List.mem_append_left _ hb)]

end HashChain
