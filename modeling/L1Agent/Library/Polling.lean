import Mathlib.Data.List.Sort

/-! # Reading a growing table by a cursor

The rows of a table have ids, and a reader asks for the next page of those above its cursor.  It
hands the rows of a page on, one by one, and goes on from the last of them.  Whatever rows appear
meanwhile, each is handed on at most once and in the order of the ids; a row that appears above
the cursor is not passed over, and one that appears at or below it is never read.

`Follower` is what a reader keeps, its cursor and what it has been given; `InOrder` and `Covers`
are its two invariants.  A page keeps both (`InOrder.read`, `Covers.page`), and since a page passes
over no row (`page_covers`) each of them brings the cursor nearer to a row above it
(`page_advances`).
-/
namespace Polling

variable {α : Type}

/-- The next `limit` rows above the cursor, in the order of their ids. -/
def page (limit : Nat) (id : α → Nat) (cursor : Nat) (rows : List α) : List α :=
  ((rows.filter fun r => cursor < id r).insertionSort fun a b => id a ≤ id b).take limit

section
variable {limit : Nat} {id : α → Nat} {cursor : Nat} {rows : List α} {x y : α}

theorem mem_above : x ∈ (rows.filter fun r => cursor < id r).insertionSort (fun a b => id a ≤ id b) ↔
    x ∈ rows ∧ cursor < id x := by
  rw [List.mem_insertionSort, List.mem_filter, decide_eq_true_iff]

theorem mem_page (h : x ∈ page limit id cursor rows) : x ∈ rows ∧ cursor < id x :=
  mem_above.mp (List.mem_of_mem_take h)

/-- The rows above the cursor, in order. -/
theorem above_sorted (hrows : (rows.map id).Nodup) :
    ((rows.filter fun r => cursor < id r).insertionSort fun a b => id a ≤ id b).Pairwise
      fun a b => id a < id b := by
  have hdistinct : (((rows.filter fun r => cursor < id r).insertionSort
      fun a b => id a ≤ id b).map id).Nodup :=
    ((List.perm_insertionSort _ _).map id).nodup_iff.mpr (hrows.sublist (List.filter_sublist.map id))
  have htotal : Std.Total fun a b : α => id a ≤ id b := ⟨fun a b => Nat.le_total (id a) (id b)⟩
  have htrans : IsTrans α fun a b => id a ≤ id b := ⟨fun a b c => Nat.le_trans⟩
  have hle := List.pairwise_insertionSort (fun a b : α => id a ≤ id b)
    (rows.filter fun r => cursor < id r)
  have hne := List.pairwise_map.mp hdistinct
  exact hle.imp₂ (fun a b hab hne => Nat.lt_of_le_of_ne hab hne) hne

theorem page_sorted (hrows : (rows.map id).Nodup) :
    (page limit id cursor rows).Pairwise fun a b => id a < id b :=
  (above_sorted hrows).sublist (List.take_sublist _ _)

/-- **A page passes over no row.** -/
theorem page_covers (hrows : (rows.map id).Nodup) (hx : x ∈ rows) (habove : cursor < id x)
    (hy : y ∈ page limit id cursor rows) (hle : id x ≤ id y) : x ∈ page limit id cursor rows := by
  have hsorted := @above_sorted _ id cursor _ hrows
  have hmem := mem_above.mpr ⟨hx, habove⟩
  unfold page at hy ⊢
  rw [← List.take_append_drop limit (List.insertionSort _ _)] at hmem hsorted
  rcases List.mem_append.mp hmem with htaken | hdropped
  · exact htaken
  · have hlt := (List.pairwise_append.mp hsorted).2.2 y hy x hdropped
    omega

theorem page_ne_nil (hlimit : 0 < limit) (hx : x ∈ rows) (habove : cursor < id x) :
    page limit id cursor rows ≠ [] := by
  intro hnil
  unfold page at hnil
  rcases List.take_eq_nil_iff.mp hnil with hzero | hnone
  · omega
  · have hmem := mem_above.mpr ⟨hx, habove⟩
    rw [hnone] at hmem
    cases hmem

end

/-- Where a reader is: what it has been given and what of that it has handed on. -/
structure Follower (α : Type) where
  cursor : Nat := 0
  pending : List α := []
  delivered : List α := []

namespace Follower
variable (id : α → Nat) (r : Follower α)

/-- A page is read. -/
def read (rows : List α) : Follower α :=
  { r with cursor := (rows.getLast?.map id).getD r.cursor, pending := rows }

/-- The next row of the page is handed on. -/
def hand : Follower α :=
  { r with pending := r.pending.tail, delivered := r.delivered ++ r.pending.head?.toList }

def told : List α := r.delivered ++ r.pending

/-- **The rows have come in the order of their ids**, up to the cursor. -/
structure InOrder : Prop where
  sorted : r.told.Pairwise fun a b => id a < id b
  below : ∀ x ∈ r.told, id x ≤ r.cursor

variable {id r} {rows : List α} {x : α}

theorem told_hand : r.hand.told = r.told := by
  unfold hand told
  cases r.pending with
  | nil => simp
  | cons x rest => simp

theorem told_read (hpending : r.pending = []) : (r.read id rows).told = r.told ++ rows := by
  unfold read told
  rw [hpending, List.append_nil]

theorem InOrder.hand (h : r.InOrder id) : r.hand.InOrder id where
  sorted := by
    rw [told_hand]
    exact h.sorted
  below := by
    rw [told_hand]
    exact h.below

theorem getLast_sorted (hsorted : rows.Pairwise fun a b => id a < id b) {last : α}
    (hlast : rows.getLast? = some last) (hx : x ∈ rows) : id x ≤ id last := by
  obtain ⟨front, rfl⟩ := List.getLast?_eq_some_iff.mp hlast
  rcases List.mem_append.mp hx with hx | hx
  · exact Nat.le_of_lt ((List.pairwise_append.mp hsorted).2.2 x hx last (List.mem_singleton_self _))
  · cases List.mem_singleton.mp hx
    exact Nat.le_refl _

/-- The cursor does not fall, and is past every row that is read. -/
theorem read_cursor (hsorted : rows.Pairwise fun a b => id a < id b)
    (habove : ∀ x ∈ rows, r.cursor < id x) :
    r.cursor ≤ (r.read id rows).cursor ∧ ∀ x ∈ rows, id x ≤ (r.read id rows).cursor := by
  cases hlast : rows.getLast? with
  | none =>
    have hnil := List.getLast?_eq_none_iff.mp hlast
    subst hnil
    exact ⟨Nat.le_refl _, fun x hx => nomatch hx⟩
  | some last =>
    have hcursor : (r.read id rows).cursor = id last := by
      unfold read
      rw [hlast]
      rfl
    rw [hcursor]
    exact ⟨Nat.le_of_lt (habove last (List.mem_of_getLast? hlast)),
      fun x hx => getLast_sorted hsorted hlast hx⟩

theorem InOrder.read (h : r.InOrder id) (hpending : r.pending = [])
    (hsorted : rows.Pairwise fun a b => id a < id b) (habove : ∀ x ∈ rows, r.cursor < id x) :
    (r.read id rows).InOrder id := by
  obtain ⟨hcursor, hrows⟩ := read_cursor hsorted habove
  refine ⟨?_, ?_⟩
  · rw [told_read hpending]
    refine List.pairwise_append.mpr ⟨h.sorted, hsorted, fun x hx y hy => ?_⟩
    have hlow := h.below x hx
    have hhigh := habove y hy
    omega
  · rw [told_read hpending]
    intro x hx
    rcases List.mem_append.mp hx with hx | hx
    · exact Nat.le_trans (h.below x hx) hcursor
    · exact hrows x hx

/-- **Nothing is passed over**: a row of the table is above the cursor or has been given. -/
def Covers (id : α → Nat) (r : Follower α) (x : α) : Prop := id x ≤ r.cursor → x ∈ r.told

theorem Covers.hand (h : r.Covers id x) : r.hand.Covers id x := by
  intro hle
  rw [told_hand]
  exact h hle

theorem Covers.page {table : List α} {limit : Nat} (h : r.Covers id x) (hpending : r.pending = [])
    (htable : (table.map id).Nodup) (hx : x ∈ table) :
    (r.read id (page limit id r.cursor table)).Covers id x := by
  intro hle
  rw [told_read hpending]
  by_cases hcursor : id x ≤ r.cursor
  · exact List.mem_append_left _ (h hcursor)
  · refine List.mem_append_right _ ?_
    unfold read at hle
    cases hlast : (Polling.page limit id r.cursor table).getLast? with
    | none =>
      rw [hlast] at hle
      exact absurd hle hcursor
    | some last =>
      rw [hlast] at hle
      exact page_covers htable hx (by omega) (List.mem_of_getLast? hlast) hle

/-- A page moves the cursor while there is a row above it. -/
theorem page_advances {table : List α} {limit : Nat} (hlimit : 0 < limit)
    (htable : (table.map id).Nodup) (hx : x ∈ table) (habove : r.cursor < id x) :
    r.cursor < (r.read id (page limit id r.cursor table)).cursor := by
  obtain ⟨y, hy⟩ := List.exists_mem_of_ne_nil _ (page_ne_nil hlimit hx habove)
  have hrows := (read_cursor (page_sorted htable)
    fun z hz => (mem_page hz).2).2 y hy
  have hlow := (mem_page hy).2
  omega

end Follower

end Polling
