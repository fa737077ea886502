import Mathlib.Data.List.Count
import Mathlib.Data.List.Nodup
import Mathlib.Order.Lattice

/-! # Counting in fixed windows

A table has a row for a key, with the window that is counted and how often the key was seen in it.
A row of an earlier window counts nothing, so it may be forgotten at any time.  While the windows do
not go back, the table tells of every key how often it was seen in the window that is now
(`Exact`).

`Exact` is kept by each of the things that are done to the table: to see a key (`hit`), to move on
to a later window (`advance`), and to forget the rows of other windows (`prune`).
-/
namespace FixedWindows
variable {κ ω : Type} [DecidableEq κ] [LinearOrder ω]

/-- Of each key the window that is counted, and the count. -/
abbrev Table (κ ω : Type) := List (κ × ω × Nat)

namespace Table

omit [LinearOrder ω] in
/-- The row of the key, in the place of the one that it had. -/
def put (key : κ) (row : ω × Nat) : Table κ ω → Table κ ω
  | [] => [(key, row)]
  | (other, old) :: rest =>
    if other = key then (key, row) :: rest else (other, old) :: put key row rest

/-- The rows of the window only. -/
def prune (window : ω) (table : Table κ ω) : Table κ ω :=
  table.filter fun row => decide (row.2.1 = window)

/-- How often the key was seen in the window, by its row. -/
def counted (table : Table κ ω) (key : κ) (window : ω) : Nat :=
  match table.lookup key with
  | some (start, count) => if start = window then count else 0
  | none => 0

/-- Each key has one row. -/
def Proper (table : Table κ ω) : Prop := (table.map (·.1)).Nodup

variable {table : Table κ ω} {key other : κ} {row : ω × Nat} {window : ω}

omit [LinearOrder ω] in
theorem lookup_cons_of_ne {rest : Table κ ω} {k : κ} (h : other ≠ k) :
    List.lookup other ((k, row) :: rest) = rest.lookup other := by
  rw [List.lookup_cons, beq_false_of_ne h]

omit [LinearOrder ω] in
theorem lookup_put :
    (put key row table).lookup other = if other = key then some row else table.lookup other := by
  induction table with
  | nil =>
    unfold put
    by_cases h : other = key
    · rw [if_pos h, h, List.lookup_cons_self]
    · rw [if_neg h, lookup_cons_of_ne h]
  | cons first rest ih =>
    obtain ⟨k, old⟩ := first
    unfold put
    by_cases hk : k = key
    · subst hk
      rw [if_pos rfl]
      by_cases h : other = k
      · rw [if_pos h, h, List.lookup_cons_self]
      · rw [if_neg h, lookup_cons_of_ne h, lookup_cons_of_ne h]
    · rw [if_neg hk]
      by_cases h : other = k
      · rw [h, List.lookup_cons_self, List.lookup_cons_self, if_neg hk]
      · rw [lookup_cons_of_ne h, lookup_cons_of_ne h, ih]

omit [LinearOrder ω] in
theorem keys_put : (put key row table).map (·.1) =
    if key ∈ table.map (·.1) then table.map (·.1) else table.map (·.1) ++ [key] := by
  induction table with
  | nil => rfl
  | cons first rest ih =>
    obtain ⟨k, old⟩ := first
    unfold put
    by_cases hk : k = key
    · subst hk
      simp
    · rw [if_neg hk, List.map_cons, ih]
      by_cases hmem : key ∈ rest.map (·.1)
      · simp [hmem]
      · simp [hmem, Ne.symm hk]

omit [LinearOrder ω] in
theorem Proper.put (h : table.Proper) : (put key row table).Proper := by
  unfold Proper
  rw [keys_put]
  split
  · exact h
  · rename_i hmem
    refine List.nodup_append.mpr ⟨h, List.nodup_singleton key, ?_⟩
    intro a ha b hb hab
    rw [List.mem_singleton] at hb
    exact hmem (hb ▸ hab ▸ ha)

omit [DecidableEq κ] in
theorem Proper.prune (h : table.Proper) : (table.prune window).Proper :=
  h.sublist (List.filter_sublist.map _)

omit [LinearOrder ω] in
/-- What the first row has, the others do not. -/
theorem lookup_rest {rest : Table κ ω} (h : Proper ((key, row) :: rest)) :
    rest.lookup key = none := by
  refine List.lookup_eq_none_iff.mpr fun other hmem => ?_
  have hne : key ≠ other.1 := fun heq =>
    (List.nodup_cons.mp h).1 (List.mem_map.mpr ⟨other, hmem, heq.symm⟩)
  simpa using hne

/-- A row that is left is the one that the key had. -/
theorem lookup_prune (h : table.Proper) :
    (table.prune window).lookup key =
      (table.lookup key).filter fun row => decide (row.1 = window) := by
  induction table with
  | nil => rfl
  | cons first rest ih =>
    obtain ⟨k, start, count⟩ := first
    have ih := ih (List.nodup_cons.mp h).2
    unfold prune at ih ⊢
    by_cases hstart : start = window
    · rw [List.filter_cons_of_pos (by simpa using hstart)]
      by_cases hkey : key = k
      · rw [hkey, List.lookup_cons_self, List.lookup_cons_self, Option.filter_some,
          if_pos (by simpa using hstart)]
      · rw [lookup_cons_of_ne hkey, lookup_cons_of_ne hkey, ih]
    · rw [List.filter_cons_of_neg (by simpa using hstart), ih]
      by_cases hkey : key = k
      · subst hkey
        rw [lookup_rest h, List.lookup_cons_self, Option.filter_some,
          if_neg (by simpa using hstart)]
        rfl
      · rw [lookup_cons_of_ne hkey]

theorem counted_put :
    counted (table.put key row) other window =
      if other = key then (if row.1 = window then row.2 else 0)
      else table.counted other window := by
  unfold counted
  rw [lookup_put]
  by_cases h : other = key
  · rw [if_pos h, if_pos h]
  · rw [if_neg h, if_neg h]

/-- What is forgotten counts in no other window. -/
theorem counted_prune (h : table.Proper) {now : ω} :
    counted (table.prune now) key window =
      if window = now then table.counted key window else 0 := by
  unfold counted
  rw [lookup_prune h]
  rcases table.lookup key with _ | ⟨start, count⟩
  · simp
  · by_cases hstart : start = now
    · subst hstart
      by_cases hwindow : window = start
      · simp [Option.filter, hwindow]
      · simp [Option.filter, hwindow, Ne.symm hwindow]
    · by_cases hwindow : window = now
      · subst hwindow
        simp [Option.filter, hstart]
      · simp [Option.filter, hstart, hwindow]

end Table

/-- How often the key was seen in the window. -/
def times (seen : List (κ × ω)) (key : κ) (window : ω) : Nat :=
  seen.countP fun e => decide (e.1 = key ∧ e.2 = window)

/-- **The table is exact** after what was seen, each key with its window: it tells how often a key
was seen in the window that is now, or in any that is to come. -/
structure Exact (seen : List (κ × ω)) (now : ω) (table : Table κ ω) : Prop where
  proper : table.Proper
  past : ∀ e ∈ seen, e.2 ≤ now
  exact : ∀ key window, now ≤ window → table.counted key window = times seen key window

namespace Exact
variable {seen : List (κ × ω)} {now : ω} {table : Table κ ω}

theorem nil (now : ω) : Exact (κ := κ) [] now [] :=
  ⟨List.nodup_nil, fun _ h => (nomatch h), fun _ _ _ => rfl⟩

theorem advance {later : ω} (h : Exact seen now table) (hle : now ≤ later) :
    Exact seen later table where
  proper := h.proper
  past e he := (h.past e he).trans hle
  exact key window hwindow := h.exact key window (hle.trans hwindow)

/-- Nothing was seen in a window that is to come. -/
theorem count_later (h : Exact seen now table) {key : κ} {window : ω} (hlt : now < window) :
    times seen key window = 0 := by
  refine List.countP_eq_zero.mpr fun e he heq => ?_
  have hwindow := (of_decide_eq_true heq).2
  exact absurd (h.past e he) (hwindow ▸ hlt.not_ge)

/-- **To see a key** makes its count one more, and no other. -/
theorem hit (h : Exact seen now table) (key : κ) :
    Exact (seen ++ [(key, now)]) now (table.put key (now, table.counted key now + 1)) where
  proper := h.proper.put
  past e he := by
    rcases List.mem_append.mp he with he | he
    · exact h.past e he
    · rw [List.mem_singleton.mp he]
  exact other window hle := by
    unfold times
    rw [Table.counted_put, List.countP_append, List.countP_singleton]
    show _ = times seen other window + _
    by_cases hother : other = key
    · subst hother
      rw [if_pos rfl]
      rcases hle.eq_or_lt with rfl | hlt
      · simp [h.exact other now le_rfl]
      · simp [hlt.ne, h.count_later hlt]
    · rw [if_neg hother, h.exact other window hle]
      simp [Ne.symm hother]

/-- **To forget the rows of other windows** changes no count. -/
theorem prune (h : Exact seen now table) : Exact seen now (table.prune now) where
  proper := h.proper.prune
  past := h.past
  exact key window hle := by
    rw [Table.counted_prune h.proper]
    rcases hle.eq_or_lt with rfl | hlt
    · rw [if_pos rfl, h.exact key now le_rfl]
    · rw [if_neg hlt.ne', h.count_later hlt]

end Exact
end FixedWindows
