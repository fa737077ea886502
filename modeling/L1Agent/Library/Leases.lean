import Mathlib.Data.List.Pairwise
import Mathlib.Data.Option.Basic

/-! # Leases that are granted one after the other

A list of leases, the newest first: each is on a key, lasts until it expires, and may be given
up before.  A key is to be granted again only when its newest lease holds no longer; then at
most one lease on it holds at a time (`Settled.exclusive`).

`Settled` is the invariant of the list.  That a lease which holds is the newest on its key
(`Settled.newest_of_holds`) is the step to `Settled.exclusive`.
-/
namespace Leasing

/-- A lease that has been granted. -/
structure Lease (H K : Type*) where
  holder : H
  key : K
  expires : Nat
  /-- It has been given up. -/
  ended : Bool := false
  deriving DecidableEq

variable {H K : Type*} {l l' : Lease H K} {ls : List (Lease H K)} {k k' : K} {now now' x : Nat}

/-- The lease is still good. -/
def Lease.Holds (l : Lease H K) (now : Nat) : Prop := l.ended = false ∧ now ≤ l.expires

instance (l : Lease H K) (now : Nat) : Decidable (l.Holds now) :=
  inferInstanceAs (Decidable (_ ∧ _))

theorem Lease.Holds.earlier (h : l.Holds now') (hle : now ≤ now') : l.Holds now :=
  ⟨h.1, Nat.le_trans hle h.2⟩

/-- No two leases on one key hold. -/
def Exclusive (now : Nat) (ls : List (Lease H K)) : Prop :=
  ls.Pairwise fun a b => a.key = b.key → ¬ (a.Holds now ∧ b.Holds now)

instance [DecidableEq K] (ls : List (Lease H K)) : Decidable (Exclusive now ls) :=
  inferInstanceAs (Decidable (List.Pairwise _ _))

/-- Only the newest lease on a key may hold. -/
def Settled (now : Nat) (ls : List (Lease H K)) : Prop :=
  ls.Pairwise fun newer older => newer.key = older.key → ¬ older.Holds now

theorem Settled.exclusive (h : Settled now ls) : Exclusive now ls :=
  h.imp fun hold hkey hboth => hold hkey hboth.2

/-- A lease that holds no longer does not come back by itself. -/
theorem Settled.later (h : Settled now ls) (hle : now ≤ now') : Settled now' ls :=
  h.imp fun hold hkey hlater => hold hkey (hlater.earlier hle)

variable [DecidableEq K]

/-- The newest lease on a key. -/
def newest (k : K) (ls : List (Lease H K)) : Option (Lease H K) := ls.find? (·.key = k)

/-- The newest lease on a key is extended. -/
def extend (k : K) (expires : Nat) : List (Lease H K) → List (Lease H K)
  | [] => []
  | l :: ls => if l.key = k then { l with expires } :: ls else l :: extend k expires ls

/-- The leases of some holders on a key are given up. -/
def surrender (k : K) (who : H → Bool) (ls : List (Lease H K)) : List (Lease H K) :=
  ls.map fun l => if l.key = k ∧ who l.holder = true then { l with ended := true } else l

theorem newest_key (h : newest k ls = some l) : l.key = k := by
  simpa using List.find?_some h

theorem newest_cons (k : K) (l : Lease H K) (ls : List (Lease H K)) :
    newest k (l :: ls) = if l.key = k then some l else newest k ls := by
  by_cases h : l.key = k <;> simp [newest, h]

@[simp] theorem newest_cons_self (l : Lease H K) (ls : List (Lease H K)) :
    newest l.key (l :: ls) = some l := by
  simp [newest]

theorem newest_cons_other (h : l.key ≠ k) : newest k (l :: ls) = newest k ls := by
  simp [newest, h]

/-- **A lease that holds is the newest** on its key. -/
theorem Settled.newest_of_holds (h : Settled now ls) (hl : l ∈ ls) (hholds : l.Holds now) :
    newest l.key ls = some l := by
  induction ls with
  | nil => cases hl
  | cons a ls ih =>
    obtain ⟨ha, hls⟩ := List.pairwise_cons.mp h
    rcases List.mem_cons.mp hl with rfl | hl
    · exact newest_cons_self l ls
    · have hne : a.key ≠ l.key := fun hkey => ha l hl hkey hholds
      rw [newest_cons_other hne]
      exact ih hls hl

/-! ## What may happen to them -/

/-- A key is granted again when its newest lease holds no longer. -/
theorem Settled.grant (h : Settled now ls)
    (hnew : ∀ old, newest l.key ls = some old → ¬ old.Holds now) : Settled now (l :: ls) := by
  refine List.pairwise_cons.mpr ⟨fun old hold hkey hholds => ?_, h⟩
  refine hnew old ?_ hholds
  rw [hkey]
  exact h.newest_of_holds hold hholds

theorem mem_extend (h : l ∈ extend k x ls) :
    l ∈ ls ∨ ∃ old, newest k ls = some old ∧ l = { old with expires := x } := by
  induction ls with
  | nil => cases h
  | cons a ls ih =>
    unfold extend at h
    by_cases ha : a.key = k
    · rw [if_pos ha] at h
      rcases List.mem_cons.mp h with rfl | h
      · exact .inr ⟨a, by rw [← ha]; exact newest_cons_self a ls, rfl⟩
      · exact .inl (List.mem_cons_of_mem _ h)
    · rw [if_neg ha] at h
      rcases List.mem_cons.mp h with rfl | h
      · exact .inl (List.mem_cons_self ..)
      · rw [newest_cons_other ha]
        exact (ih h).imp (List.mem_cons_of_mem _) id

theorem newest_extend (k' : K) : newest k' (extend k x ls) =
    if k' = k then (newest k ls).map fun l => { l with expires := x } else newest k' ls := by
  induction ls with
  | nil =>
    simp only [extend, newest, List.find?_nil, Option.map_none]
    split <;> rfl
  | cons a ls ih =>
    unfold extend
    by_cases ha : a.key = k
    · rw [if_pos ha]
      subst ha
      by_cases hk : k' = a.key
      · subst hk
        rw [if_pos rfl, newest_cons_self]
        exact newest_cons_self { a with expires := x } ls
      · rw [if_neg hk, newest_cons_other fun h => hk h.symm]
        exact newest_cons_other fun h => hk h.symm
    · rw [if_neg ha]
      by_cases hk : k' = a.key
      · subst hk
        rw [if_neg ha, newest_cons_self, newest_cons_self]
      · rw [newest_cons_other fun h => hk h.symm, ih, newest_cons_other ha]
        split
        · rfl
        · rw [newest_cons_other fun h => hk h.symm]

theorem Settled.extend (h : Settled now ls) (k : K) (x : Nat) :
    Settled now (extend k x ls) := by
  induction ls with
  | nil => exact .nil
  | cons a ls ih =>
    obtain ⟨ha, hls⟩ := List.pairwise_cons.mp h
    unfold Leasing.extend
    by_cases hkey : a.key = k
    · rw [if_pos hkey]
      exact List.pairwise_cons.mpr ⟨ha, hls⟩
    · rw [if_neg hkey]
      refine List.pairwise_cons.mpr ⟨fun old hold hsame => ?_, ih hls⟩
      rcases mem_extend hold with hold | ⟨first, hfirst, rfl⟩
      · exact ha old hold hsame
      · have hfound : first.key = k := newest_key hfirst
        exact absurd (hsame.trans hfound) hkey

theorem newest_surrender (who : H → Bool) (k' : K) : newest k' (surrender k who ls) =
    (newest k' ls).map fun l =>
      if l.key = k ∧ who l.holder = true then { l with ended := true } else l := by
  induction ls with
  | nil => rfl
  | cons a ls ih =>
    have hkey : (if a.key = k ∧ who a.holder = true then { a with ended := true } else a).key =
        a.key := by
      split <;> rfl
    have hcons : surrender k who (a :: ls) =
        (if a.key = k ∧ who a.holder = true then { a with ended := true } else a) ::
          surrender k who ls := rfl
    rw [hcons, newest_cons, newest_cons, hkey, ih]
    by_cases ha : a.key = k'
    · rw [if_pos ha, if_pos ha, Option.map_some]
    · rw [if_neg ha, if_neg ha]

theorem Settled.surrender (h : Settled now ls) (k : K) (who : H → Bool) :
    Settled now (surrender k who ls) := by
  have hsame : ∀ l : Lease H K,
      (if l.key = k ∧ who l.holder = true then { l with ended := true } else l).key = l.key ∧
      ((if l.key = k ∧ who l.holder = true then { l with ended := true } else l).Holds now →
        l.Holds now) := by
    intro l
    split
    · exact ⟨rfl, fun hholds => nomatch hholds.1⟩
    · exact ⟨rfl, fun hholds => hholds⟩
  refine List.pairwise_map.mpr (h.imp fun {a b} hold hkey hholds => ?_)
  rw [(hsame a).1, (hsame b).1] at hkey
  exact hold hkey ((hsame b).2 hholds)

end Leasing
